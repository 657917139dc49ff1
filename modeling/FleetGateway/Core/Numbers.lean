import FleetGateway.Core.Settings

/-! The integers among the settings: what is stored, against what the text of a value denotes. -/

namespace FleetGateway.Core.Numbers
open Library Library.ByteStore Library.Numerals Core.Configuration Settings

/-- The settings that are an `int`. -/
def Signed : Setting → Prop
  | .port | .backlog => True
  | _ => False

def stored : Setting → Config → Option Int
  | .port, config => some config.port
  | .backlog, config => some config.backlog
  | .epollWorkerCount, config => some config.epollWorkerCount
  | .threadPoolSize, config => some config.threadPoolSize
  | .taskQueueCapacity, config => some config.taskQueueCapacity
  | .storageSegmentSize, config => some config.storageSegmentSize
  | .recentMessageCapacity, config => some config.recentMessageCapacity
  | _, _ => none

theorem parseNumber_ok {T : Type} {extract : Bytes → Option (T × Bytes)} {value key : Bytes} {parsed : T}
    (accepted : parseNumber extract value key = .ok parsed) :
    ∃ rest, extract (value.dropWhile isSpace) = some (parsed, rest) ∧ rest.dropWhile isSpace = [] := by
  unfold parseNumber at accepted
  cases extracted : extract (value.dropWhile isSpace) with
  | none =>
    rw [extracted] at accepted
    cases accepted
  | some pair =>
    obtain ⟨first, rest⟩ := pair
    rw [extracted] at accepted
    dsimp only at accepted
    split_ifs at accepted with whole
    cases accepted
    exact ⟨rest, rfl, whole⟩

theorem signed_accepted {value key : Bytes} {parsed : Int} (accepted : parseNumber extractInt value key = .ok parsed) :
    Spells value parsed := by
  obtain ⟨rest, extracted, whole⟩ := parseNumber_ok accepted
  obtain ⟨number, converted, pair⟩ := Option.map_eq_some_iff.mp extracted
  cases pair
  obtain ⟨digits, same⟩ := Field.toSigned_eq converted
  rw [same]
  exact spells_of_field digits whole

/-- An unsigned type accepts a minus sign too, and keeps the number only where it is not below zero. -/
theorem unsigned_accepted {setting : Setting} (unsigned : ¬ Signed setting) {wide bits parsed : Nat}
    {value key : Bytes} {extract : Bytes → Option (Nat × Bytes)}
    (extraction : ∀ source, extract source =
      ((integerField source).toUnsigned wide bits).map (·, (integerField source).rest))
    (accepted : parseNumber extract value key = .ok parsed) :
    ∃ number, Spells value number ∧ ((parsed : Int) = number ↔ Signed setting ∨ 0 ≤ number) := by
  obtain ⟨rest, extracted, whole⟩ := parseNumber_ok accepted
  rw [extraction] at extracted
  obtain ⟨number, converted, pair⟩ := Option.map_eq_some_iff.mp extracted
  cases pair
  obtain ⟨digits, same⟩ := Field.toUnsigned_eq converted
  exact ⟨_, spells_of_field digits whole, same.trans (or_iff_right unsigned).symm⟩

theorem read_stored {negation : Negation} {setting : Setting} {value : Bytes} {parsed : setting.Value}
    (accepted : setting.read negation value = .ok parsed) {config : Config} {kept : Int}
    (here : stored setting (setting.set parsed config) = some kept) :
    ∃ number, Spells value number ∧ (kept = number ↔ Signed setting ∨ 0 ≤ number) := by
  cases setting with
  | port =>
    cases here
    exact ⟨_, signed_accepted accepted, iff_of_true rfl (.inl trivial)⟩
  | backlog =>
    cases here
    exact ⟨_, signed_accepted accepted, iff_of_true rfl (.inl trivial)⟩
  | epollWorkerCount =>
    cases here
    exact unsigned_accepted id (fun _ => rfl) accepted
  | threadPoolSize =>
    cases here
    exact unsigned_accepted id (fun _ => rfl) accepted
  | taskQueueCapacity =>
    cases here
    exact unsigned_accepted id (fun _ => rfl) accepted
  | storageSegmentSize =>
    cases here
    exact unsigned_accepted id (fun _ => rfl) accepted
  | recentMessageCapacity =>
    cases here
    exact unsigned_accepted id (fun _ => rfl) accepted
  | logPath => cases here
  | rateLimitCapacity => cases here
  | rateLimitRefillRate => cases here
  | storageDirectory => cases here

/-- A value that is accepted for an integer setting denotes one number, and that is what is stored
exactly where the setting is signed or the number is not below zero. -/
theorem stored_number (negation : Negation) (setting : Setting) (config left : Config) (value : Bytes) (kept : Int)
    (applied : apply negation config setting.key value = .ok left) (here : stored setting left = some kept) :
    ∃ number, (∀ other, Spells value other ↔ other = number) ∧ (kept = number ↔ Signed setting ∨ 0 ≤ number) := by
  rw [apply_key] at applied
  cases accepted : setting.read negation value with
  | error message =>
    rw [accepted] at applied
    cases applied
  | ok parsed =>
    rw [accepted] at applied
    cases applied
    obtain ⟨number, spells, same⟩ := read_stored accepted here
    refine ⟨number, fun other => ⟨fun denotes => denotes.unique spells, ?_⟩, same⟩
    rintro rfl
    exact spells

/-- A negative text that is stored as one, and passes the check of the whole. -/
theorem stored_number_negative :
    let value := text "-18446744073709551615"
    let left : Config := { taskQueueCapacity := 1 }
    apply .wide {} Setting.taskQueueCapacity.key value = .ok left ∧ validate left = .ok () ∧
    ∃ number, (∀ other, Spells value other ↔ other = number) ∧
      (1 = number ↔ Signed .taskQueueCapacity ∨ 0 ≤ number) :=
  ⟨rfl, by decide +kernel, stored_number .wide .taskQueueCapacity {} { taskQueueCapacity := 1 } _ 1 rfl rfl⟩

/-- Wherever the library takes the negative, what is accepted is not always what is stored. -/
theorem negative_accepted :
    ¬ ∃ negation : Negation, ∀ (setting : Setting) (config left : Config) (value : Bytes) (kept number : Int),
      apply negation config setting.key value = .ok left → validate left = .ok () →
      stored setting left = some kept → Spells value number → kept = number := by
  rintro ⟨negation, law⟩
  have denotes : Spells (text "-18446744073709551615") (-18446744073709551615) :=
    ⟨[], text "-", text "18446744073709551615", [], by decide +kernel, ⟨rfl, rfl⟩, ⟨by decide +kernel, by decide +kernel⟩,
      .inr ⟨rfl, by decide +kernel⟩⟩
  have here := law .taskQueueCapacity {} { taskQueueCapacity := 1 } _ 1 _ rfl (by decide +kernel) rfl denotes
  revert here
  decide

end FleetGateway.Core.Numbers
