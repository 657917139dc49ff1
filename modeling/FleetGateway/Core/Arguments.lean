import FleetGateway.Core.Settings

/-! The precedence of settings: the defaults, a file, and the command line. The first pass over
the arguments looks for the file and the second applies the flags. -/

namespace FleetGateway.Core.Arguments
open Library Library.ByteStore Core.Configuration Settings

inductive Argument where
  | config (path : Bytes)
  | override (setting : Setting) (value : Bytes)

def Argument.words : Argument → List Bytes
  | config path => [text "--config", path]
  | override setting value => [setting.flag, value]

def configFile : List Argument → Option Bytes
  | [] => none
  | .config path :: rest => some ((configFile rest).getD path)
  | .override _ _ :: rest => configFile rest

def overrides : List Argument → List (Setting × Bytes)
  | [] => []
  | .config _ :: rest => overrides rest
  | .override setting value :: rest => (setting, value) :: overrides rest

def Plain (arguments : List Argument) : Prop :=
  ∀ setting value, Argument.override setting value ∈ arguments → value ≠ text "--config"

theorem findConfig_other (path : Bytes) {word : Bytes} (rest : List Bytes) (other : word ≠ text "--config") :
    findConfig path (word :: rest) = findConfig path rest := by
  cases rest with
  | nil => exact if_neg other
  | cons next rest => exact if_neg other

/-- The first pass goes through a flag's value as if it were an option: spelled `--config`, it takes
what follows for a path. -/
theorem findConfig_stray (path : Bytes) (setting : Setting) (word : Bytes) (rest : List Bytes) :
    findConfig path (setting.flag :: text "--config" :: word :: rest) = findConfig word rest := by
  rw [findConfig_other path _ (flag_ne_config setting)]
  exact if_pos rfl

theorem findConfig_words (path : Bytes) (arguments : List Argument) (plain : Plain arguments) :
    findConfig path (arguments.flatMap Argument.words) = .ok ((configFile arguments).getD path) := by
  induction arguments generalizing path with
  | nil => rfl
  | cons argument rest ih =>
    have others : Plain rest := fun setting value member => plain setting value (List.mem_cons_of_mem _ member)
    cases argument with
    | config given =>
      have first : findConfig path (text "--config" :: given :: rest.flatMap Argument.words) =
          findConfig given (rest.flatMap Argument.words) := if_pos rfl
      rw [List.flatMap_cons]
      exact first.trans (ih given others)
    | override setting value =>
      rw [List.flatMap_cons]
      change findConfig path (setting.flag :: value :: rest.flatMap Argument.words) = _
      rw [findConfig_other path _ (flag_ne_config setting),
        findConfig_other path _ (plain setting value List.mem_cons_self)]
      exact ih path others

theorem applyArguments_words (negation : Negation) (config : Config) (arguments : List Argument) :
    applyArguments negation config (arguments.flatMap Argument.words) =
      assign negation config (overrides arguments) := by
  induction arguments generalizing config with
  | nil => rfl
  | cons argument rest ih =>
    cases argument with
    | config path =>
      have first : applyArguments negation config (text "--config" :: path :: rest.flatMap Argument.words) =
          applyArguments negation config (rest.flatMap Argument.words) := if_pos rfl
      exact first.trans (ih config)
    | override setting value =>
      rw [List.flatMap_cons]
      change applyArguments negation config (setting.flag :: value :: rest.flatMap Argument.words) = _
      rw [applyArguments, if_neg (flag_ne_config setting), lookup_flag]
      change (apply negation config setting.key value).bind _ = (apply negation config setting.key value).bind _
      exact congrArg _ (funext ih)

/-- What the flags are applied to: the defaults, or a file that passes the check by itself. -/
def base (negation : Negation) (files : Files) (path : Option Bytes) : Except Bytes Config :=
  path.elim (.ok {}) (initial negation files)

/-- The file is the one of the last `--config`, where an empty path is none, and the flags are applied
to it from left to right, so that each setting has the last value given for it. A value may be
spelled like an option, that of a flag not like `--config`. -/
theorem precedence_law (negation : Negation) (files : Files) (arguments : List Argument) (plain : Plain arguments) :
    let result := fromArgs negation files (arguments.flatMap Argument.words)
    let start := base negation files (configFile arguments)
    (result = do
      let config ← start
      let config ← assign negation config (overrides arguments)
      validate config
      return config) ∧
    ∀ left, result = .ok left → ∃ config, start = .ok config ∧ ∀ setting : Setting,
      (∀ value, lastValue setting (overrides arguments) = some value →
        setting.read negation value = .ok (setting.get left)) ∧
      (lastValue setting (overrides arguments) = none → setting.get left = setting.get config) := by
  intro result start
  have path : initial negation files ((configFile arguments).getD []) = start := by
    simp only [start, base]
    cases configFile arguments with
    | none => rfl
    | some given => rfl
  have whole : result = start.bind fun config =>
      (assign negation config (overrides arguments)).bind fun config =>
        (validate config).bind fun _ => .ok config := by
    simp only [result, fromArgs]
    rw [findConfig_words [] arguments plain, ← path]
    change (initial negation files ((configFile arguments).getD [])).bind _ = _
    refine congrArg _ (funext fun config => ?_)
    rw [applyArguments_words]
    rfl
  refine ⟨whole, fun left done => ?_⟩
  rw [whole] at done
  obtain ⟨config, begun, done⟩ := bind_ok done
  obtain ⟨final, assigned, done⟩ := bind_ok done
  obtain ⟨passed, checked, done⟩ := bind_ok done
  cases done
  exact ⟨config, begun, assign_get negation config _ (overrides arguments) assigned⟩

/-- The first path does not open, a path is spelled like an option's value, and the port comes from the
file, from a flag and from a flag again. -/
theorem precedence_law_repeated :
    let files : Files := fun path => if path = text "g" then some (text "port=1\nthread_pool_size=3\n") else none
    let arguments : List Argument := [.config (text "f"), .override .logPath (text "--port"),
      .override .port (text "2"), .config (text "g"), .override .port (text "3")]
    let result := fromArgs .wide files (arguments.flatMap Argument.words)
    let start := base .wide files (configFile arguments)
    (result.map fun left => (left.port, left.threadPoolSize, left.logPath)) = .ok (3, 3, text "--port") ∧
    (result = do
      let config ← start
      let config ← assign .wide config (overrides arguments)
      validate config
      return config) ∧
    ∀ left, result = .ok left → ∃ config, start = .ok config ∧ ∀ setting : Setting,
      (∀ value, lastValue setting (overrides arguments) = some value →
        setting.read .wide value = .ok (setting.get left)) ∧
      (lastValue setting (overrides arguments) = none → setting.get left = setting.get config) := by
  intro files arguments
  have plain : Plain arguments := by
    intro setting value member
    simp only [arguments, List.mem_cons, reduceCtorEq, Argument.override.injEq, false_or, List.not_mem_nil,
      or_false] at member
    rcases member with ⟨_, rfl⟩ | ⟨_, rfl⟩ | ⟨_, rfl⟩ <;> decide +kernel
  exact ⟨by decide +kernel, precedence_law .wide files arguments plain⟩

/-- A file has to pass the check by itself: a flag comes too late for what is wrong in it. -/
theorem file_checked_alone :
    ¬ ∀ (negation : Negation) (files : Files) (arguments : List Argument),
      fromArgs negation files (arguments.flatMap Argument.words) = do
        let config ← (configFile arguments).elim (.ok {}) (readFile negation files)
        let config ← assign negation config (overrides arguments)
        validate config
        return config := by
  intro law
  have here := law .wide (fun _ => some (text "port=0\n")) [.config (text "f"), .override .port (text "80")]
  have ports := congrArg (fun result => result.map Config.port) here
  revert ports
  decide +kernel

end FleetGateway.Core.Arguments
