import Mathlib.Data.List.Basic

/-! Computations that ask their environment for answers and go on by what they are told. The answers are
a list; a computation that needs one more has not returned. Some answers are idle: they only make the
computation ask again. -/

namespace FleetGateway.Library.Asking

variable {Answer α β : Type}

abbrev Script (Answer α : Type) : Type := StateT (List Answer) Option α

theorem pure_apply (result : α) (answers : List Answer) :
    (pure result : Script Answer α) answers = some (result, answers) := rfl

theorem bind_apply (script : Script Answer α) (next : α → Script Answer β) (answers : List Answer) :
    (script >>= next) answers = (script answers).bind fun returned => next returned.1 returned.2 := rfl

def productive (idle : Answer → Bool) (answers : List Answer) : Nat := answers.countP fun answer => !idle answer

theorem productive_cons (idle : Answer → Bool) (answer : Answer) (rest : List Answer) :
    productive idle (answer :: rest) = productive idle rest + if idle answer then 0 else 1 := by
  rw [productive, List.countP_cons]
  cases idle answer <;> rfl

/-- Where only such answers are given, the computation returns only what the postcondition allows, and it
returns, using no more than that many, once so many answers are not idle. -/
structure Meets (allowed : Answer → Prop) (idle : Answer → Bool) (script : Script Answer α) (post : α → Prop)
    (limit : Nat) : Prop where
  returns : ∀ answers result rest, (∀ answer ∈ answers, allowed answer) → script answers = some (result, rest) →
    post result ∧ ∀ answer ∈ rest, allowed answer
  ends : ∀ answers, (∀ answer ∈ answers, allowed answer) → limit ≤ productive idle answers →
    ∃ result rest, script answers = some (result, rest) ∧ productive idle answers ≤ productive idle rest + limit

variable {allowed : Answer → Prop} {idle : Answer → Bool} {script : Script Answer α} {post : α → Prop} {limit : Nat}

theorem Meets.pure {result : α} (holds : post result) :
    Meets allowed idle (pure result : Script Answer α) post limit where
  returns answers result' rest within same := by
    rw [pure_apply, Option.some.injEq, Prod.mk.injEq] at same
    rw [← same.1, ← same.2]
    exact ⟨holds, within⟩
  ends answers _ _ := ⟨result, answers, rfl, Nat.le_add_right _ _⟩

theorem Meets.bind {next : α → Script Answer β} {after : β → Prop} (meets : Meets allowed idle script post limit)
    (more : Nat) (continues : ∀ result, post result → Meets allowed idle (next result) after more) :
    Meets allowed idle (script >>= next) after (limit + more) where
  returns answers result rest within same := by
    rw [bind_apply, Option.bind_eq_some_iff] at same
    obtain ⟨⟨first, left⟩, returned, same⟩ := same
    obtain ⟨holds, within⟩ := meets.returns answers first left within returned
    exact (continues first holds).returns left result rest within same
  ends answers within enough := by
    obtain ⟨first, left, returned, used⟩ := meets.ends answers within (by omega)
    obtain ⟨holds, within⟩ := meets.returns answers first left within returned
    obtain ⟨result, rest, same, used'⟩ := (continues first holds).ends left within (by omega)
    refine ⟨result, rest, ?_, by omega⟩
    rw [bind_apply, returned]
    exact same

theorem Meets.weaken {weaker : α → Prop} {more : Nat} (meets : Meets allowed idle script post limit)
    (follows : ∀ result, post result → weaker result) (fewer : limit ≤ more) :
    Meets allowed idle script weaker more where
  returns answers result rest within same := by
    obtain ⟨holds, within⟩ := meets.returns answers result rest within same
    exact ⟨follows result holds, within⟩
  ends answers within enough := by
    obtain ⟨result, rest, returned, used⟩ := meets.ends answers within (by omega)
    exact ⟨result, rest, returned, by omega⟩

end FleetGateway.Library.Asking
