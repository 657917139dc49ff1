import FleetGateway.Http.Framing

/-! A head as it is written: lines without stray line ends, joined by CRLF and closed by
an empty line. Its first separator is where it ends, whatever follows, and its lines are
found again. -/

namespace FleetGateway.Http.Lines
open Library Library.ByteStore Library.Search Http.Parser Http.Framing

def joinLines : List Bytes → Bytes
  | [] => []
  | [line] => line
  | line :: next :: rest => line ++ (crlf ++ joinLines (next :: rest))

structure Clean (line : Bytes) : Prop where
  nonempty : line ≠ []
  returns : 13 ∉ line

theorem joinLines_close (line : Bytes) (rest : List Bytes) :
    line ++ (crlf ++ (rest.flatMap (· ++ crlf) ++ crlf)) = joinLines (line :: rest) ++ headerSeparator := by
  induction rest generalizing line with
  | nil => rfl
  | cons next rest ih =>
    have tail := ih next
    rw [joinLines, List.append_assoc, List.append_assoc, ← tail, List.flatMap_cons, List.append_assoc,
      List.append_assoc]

theorem find_crlf_line (line rest : Bytes) (clean : 13 ∉ line) :
    find crlf (line ++ (crlf ++ rest)) = some line.length := by
  have start : find crlf (crlf ++ rest) = some 0 := rfl
  rw [show crlf = 13 :: [10] from rfl, find_skip_clean 13 [10] line _ clean]
  rw [show (13 :: [10] : Bytes) = crlf from rfl, start]
  rfl

/-- A line end that is not followed by another one is passed over. -/
theorem find_separator_line (line rest : Bytes) (clean : 13 ∉ line) (more : ¬ crlf <+: rest) :
    find headerSeparator (line ++ (crlf ++ rest)) = (find headerSeparator rest).map (line.length + 2 + ·) := by
  have skipped : find headerSeparator (crlf ++ rest) = (find headerSeparator rest).map (2 + ·) := by
    apply find_skip
    intro index low here
    have cases : index = 0 ∨ index = 1 := by
      have two : crlf.length = 2 := rfl
      omega
    rcases cases with rfl | rfl
    · exact more ((List.prefix_append_right_inj crlf).mp here)
    · simp [headerSeparator, crlf] at here
  rw [show headerSeparator = 13 :: [10, 13, 10] from rfl, find_skip_clean 13 _ line _ clean]
  rw [show (13 :: [10, 13, 10] : Bytes) = headerSeparator from rfl, skipped, Option.map_map]
  congr 1
  funext place
  simp only [Function.comp_apply]
  omega

theorem not_crlf_join {line : Bytes} {rest : List Bytes} (clean : Clean line) (behind : Bytes) :
    ¬ crlf <+: joinLines (line :: rest) ++ behind := by
  obtain ⟨nonempty, returns⟩ := clean
  cases line with
  | nil => exact absurd rfl nonempty
  | cons byte others =>
    intro here
    have first : joinLines ((byte :: others) :: rest) ++ behind =
        byte :: (joinLines ((byte :: others) :: rest) ++ behind).tail := by
      cases rest with
      | nil => rfl
      | cons next rest => rfl
    rw [first, crlf, List.cons_prefix_cons] at here
    exact returns (here.1 ▸ List.mem_cons_self)

/-- The first separator stands behind the last line. -/
theorem find_separator_join (block : List Bytes) (body : Bytes) (clean : ∀ line ∈ block, Clean line)
    (nonempty : block ≠ []) :
    find headerSeparator (joinLines block ++ (headerSeparator ++ body)) = some (joinLines block).length := by
  induction block with
  | nil => exact absurd rfl nonempty
  | cons line rest ih =>
    obtain ⟨first, others⟩ := List.forall_mem_cons.mp clean
    cases rest with
    | nil =>
      have start : find headerSeparator (headerSeparator ++ body) = some 0 := rfl
      rw [joinLines, show headerSeparator = 13 :: [10, 13, 10] from rfl, find_skip_clean 13 _ line _ first.returns]
      rw [show (13 :: [10, 13, 10] : Bytes) = headerSeparator from rfl, start]
      rfl
    | cons next rest =>
      have nextClean := others next List.mem_cons_self
      rw [joinLines, List.append_assoc, List.append_assoc, find_separator_line line _ first.returns
        (not_crlf_join nextClean _), ih others (List.cons_ne_nil _ _), Option.map_some]
      simp only [List.length_append, show crlf.length = 2 from rfl]
      congr 1
      omega

theorem find_crlf_none (line : Bytes) (clean : 13 ∉ line) : find crlf line = none := by
  rw [find_eq_none_iff]
  intro index here
  exact clean (List.mem_of_mem_drop (here.subset List.mem_cons_self))

theorem lines_join (block : List Bytes) (clean : ∀ line ∈ block, Clean line) (nonempty : block ≠ []) :
    lines (joinLines block) = block := by
  induction block with
  | nil => exact absurd rfl nonempty
  | cons line rest ih =>
    obtain ⟨first, others⟩ := List.forall_mem_cons.mp clean
    cases rest with
    | nil => exact lines_of_absent line (find_crlf_none line first.returns)
    | cons next rest =>
      have two : crlf.length = 2 := rfl
      rw [joinLines, lines_of_found _ line.length (find_crlf_line line _ first.returns), List.take_left,
        ← List.drop_drop, List.drop_left, List.drop_left' two, ih others (List.cons_ne_nil _ _)]

end FleetGateway.Http.Lines
