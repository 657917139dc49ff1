import FleetGateway.Core.Configuration

/-! The settings one by one. `apply` reads the value of a key and sets one field, so that of
several values for a setting the last one stays. -/

namespace FleetGateway.Core.Settings
open Library Library.ByteStore Library.Numerals Core.Configuration

inductive Setting where
  | port
  | backlog
  | epollWorkerCount
  | threadPoolSize
  | taskQueueCapacity
  | logPath
  | rateLimitCapacity
  | rateLimitRefillRate
  | storageDirectory
  | storageSegmentSize
  | recentMessageCapacity
  deriving DecidableEq

namespace Setting

def key : Setting → Bytes
  | port => text "port"
  | backlog => text "backlog"
  | epollWorkerCount => text "epoll_worker_count"
  | threadPoolSize => text "thread_pool_size"
  | taskQueueCapacity => text "task_queue_capacity"
  | logPath => text "log_path"
  | rateLimitCapacity => text "rate_limit_capacity"
  | rateLimitRefillRate => text "rate_limit_refill_rate"
  | storageDirectory => text "storage_directory"
  | storageSegmentSize => text "storage_segment_size"
  | recentMessageCapacity => text "recent_message_capacity"

def flag : Setting → Bytes
  | port => text "--port"
  | backlog => text "--backlog"
  | epollWorkerCount => text "--epoll-workers"
  | threadPoolSize => text "--pool-threads"
  | taskQueueCapacity => text "--queue-capacity"
  | logPath => text "--log-path"
  | rateLimitCapacity => text "--rate-limit-capacity"
  | rateLimitRefillRate => text "--rate-limit-refill-rate"
  | storageDirectory => text "--storage-directory"
  | storageSegmentSize => text "--storage-segment-size"
  | recentMessageCapacity => text "--recent-capacity"

def Value : Setting → Type
  | port | backlog => Int
  | epollWorkerCount | threadPoolSize | taskQueueCapacity | storageSegmentSize | recentMessageCapacity => Nat
  | rateLimitCapacity | rateLimitRefillRate => Float
  | logPath | storageDirectory => Bytes

def get : (setting : Setting) → Config → setting.Value
  | port, config => config.port
  | backlog, config => config.backlog
  | epollWorkerCount, config => config.epollWorkerCount
  | threadPoolSize, config => config.threadPoolSize
  | taskQueueCapacity, config => config.taskQueueCapacity
  | logPath, config => config.logPath
  | rateLimitCapacity, config => config.rateLimitCapacity
  | rateLimitRefillRate, config => config.rateLimitRefillRate
  | storageDirectory, config => config.storageDirectory
  | storageSegmentSize, config => config.storageSegmentSize
  | recentMessageCapacity, config => config.recentMessageCapacity

def set : (setting : Setting) → setting.Value → Config → Config
  | port, value, config => { config with port := value }
  | backlog, value, config => { config with backlog := value }
  | epollWorkerCount, value, config => { config with epollWorkerCount := value }
  | threadPoolSize, value, config => { config with threadPoolSize := value }
  | taskQueueCapacity, value, config => { config with taskQueueCapacity := value }
  | logPath, value, config => { config with logPath := value }
  | rateLimitCapacity, value, config => { config with rateLimitCapacity := value }
  | rateLimitRefillRate, value, config => { config with rateLimitRefillRate := value }
  | storageDirectory, value, config => { config with storageDirectory := value }
  | storageSegmentSize, value, config => { config with storageSegmentSize := value }
  | recentMessageCapacity, value, config => { config with recentMessageCapacity := value }

def read (negation : Negation) : (setting : Setting) → Bytes → Except Bytes setting.Value
  | port, value => parseNumber extractInt value port.key
  | backlog, value => parseNumber extractInt value backlog.key
  | epollWorkerCount, value => parseNumber (extractUnsignedInt negation) value epollWorkerCount.key
  | threadPoolSize, value => parseNumber (extractUnsignedInt negation) value threadPoolSize.key
  | taskQueueCapacity, value => parseNumber extractUint64 value taskQueueCapacity.key
  | logPath, value => .ok value
  | rateLimitCapacity, value => parseNumber readDouble value rateLimitCapacity.key
  | rateLimitRefillRate, value => parseNumber readDouble value rateLimitRefillRate.key
  | storageDirectory, value => .ok value
  | storageSegmentSize, value => parseNumber extractUint64 value storageSegmentSize.key
  | recentMessageCapacity, value => parseNumber extractUint64 value recentMessageCapacity.key

@[simp] theorem get_set (setting : Setting) (value : setting.Value) (config : Config) :
    setting.get (setting.set value config) = value := by
  cases setting <;> rfl

theorem get_set_ne {setting other : Setting} (different : other ≠ setting) (value : setting.Value)
    (config : Config) : other.get (setting.set value config) = other.get config := by
  cases setting <;> cases other <;> first | rfl | exact absurd rfl different

end Setting

theorem lookup_flag (setting : Setting) : options.lookup setting.flag = some setting.key := by
  cases setting <;> decide +kernel

theorem flag_ne_config (setting : Setting) : setting.flag ≠ text "--config" := by
  cases setting <;> decide +kernel

theorem apply_key (negation : Negation) (setting : Setting) (config : Config) (value : Bytes) :
    apply negation config setting.key value =
      (setting.read negation value).map fun parsed => setting.set parsed config := by
  cases setting <;> rfl

theorem bind_ok {ε α β : Type} {first : Except ε α} {next : α → Except ε β} {result : β}
    (done : first.bind next = .ok result) : ∃ middle, first = .ok middle ∧ next middle = .ok result := by
  cases first with
  | error message => cases done
  | ok middle => exact ⟨middle, rfl, done⟩

def assign (negation : Negation) (config : Config) (values : List (Setting × Bytes)) : Except Bytes Config :=
  values.foldlM (fun config assignment => apply negation config assignment.1.key assignment.2) config

def lastValue (setting : Setting) (values : List (Setting × Bytes)) : Option Bytes :=
  ((values.filter fun assignment => assignment.1 = setting).getLast?).map Prod.snd

theorem lastValue_concat (setting other : Setting) (values : List (Setting × Bytes)) (value : Bytes) :
    lastValue setting (values ++ [(other, value)]) = if other = setting then some value else lastValue setting values := by
  unfold lastValue
  rw [List.filter_append]
  split_ifs with same
  · rw [List.filter_cons_of_pos (by rw [decide_eq_true same]), List.filter_nil, List.getLast?_concat]
    rfl
  · rw [List.filter_cons_of_neg (by rw [decide_eq_false same]; decide), List.filter_nil, List.append_nil]

/-- The last value wins, and a setting without a value keeps the one it had. -/
theorem assign_get (negation : Negation) (config left : Config) (values : List (Setting × Bytes))
    (assigned : assign negation config values = .ok left) (setting : Setting) :
    (∀ value, lastValue setting values = some value → setting.read negation value = .ok (setting.get left)) ∧
    (lastValue setting values = none → setting.get left = setting.get config) := by
  induction values using List.reverseRecOn generalizing left with
  | nil =>
    cases assigned
    exact ⟨fun value impossible => (by cases impossible), fun _ => rfl⟩
  | append_singleton values last ih =>
    obtain ⟨other, value⟩ := last
    have split : assign negation config (values ++ [(other, value)]) =
        (assign negation config values).bind fun middle => apply negation middle other.key value := by
      unfold assign
      rw [List.foldlM_append]
      refine congrArg _ (funext fun middle => ?_)
      exact bind_pure _
    rw [split] at assigned
    obtain ⟨middle, front, applied⟩ := bind_ok assigned
    rw [apply_key] at applied
    cases read : other.read negation value with
    | error message =>
      rw [read] at applied
      cases applied
    | ok parsed =>
      rw [read] at applied
      cases applied
      rw [lastValue_concat]
      split_ifs with same
      · subst same
        refine ⟨fun given here => ?_, fun impossible => by cases impossible⟩
        cases here
        rw [read, Setting.get_set]
      · rw [Setting.get_set_ne (Ne.symm same)]
        exact ih middle front

end FleetGateway.Core.Settings
