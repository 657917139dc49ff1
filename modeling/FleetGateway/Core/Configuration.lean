import FleetGateway.Library.Numerals
import FleetGateway.Library.Search
import Mathlib.Data.List.DropRight

/-! `Config`: the settings of the gateway, from their defaults, a file of `key=value` lines
and the command line. -/

namespace FleetGateway.Core.Configuration
open Library Library.ByteStore Library.Search Library.Numerals

structure Config where
  port : Int := 8080
  backlog : Int := 128
  epollWorkerCount : Nat := 0
  threadPoolSize : Nat := 4
  taskQueueCapacity : Nat := 1024
  logPath : Bytes := []
  rateLimitCapacity : Float := 10.0
  rateLimitRefillRate : Float := 5.0
  storageDirectory : Bytes := text "data/log"
  storageSegmentSize : Nat := 64 * 1024 * 1024
  recentMessageCapacity : Nat := 1024

/-- Where the library takes the negative of an `unsigned int`: in 64 bits, as `strtoull` does, or,
as is usual, in the type itself. A 64-bit type knows no difference. -/
inductive Negation where
  | wide
  | own
  deriving DecidableEq

def Negation.bits : Negation → Nat
  | .wide => 64
  | .own => 32

/-- The blanks of `find_first_not_of` and `find_last_not_of`. -/
def isBlank (byte : UInt8) : Bool := byte = 32 || byte = 9 || byte = 13 || byte = 10

def trim (value : Bytes) : Bytes := (value.dropWhile isBlank).rdropWhile isBlank

/-- `input >> parsed`, which skips blanks, and then `input >> extra`, which must not find anything. -/
def parseNumber {T : Type} (extract : Bytes → Option (T × Bytes)) (value key : Bytes) : Except Bytes T :=
  let invalid := text "Invalid value for " ++ key ++ text ": " ++ value
  match extract (value.dropWhile isSpace) with
  | none => .error invalid
  | some (parsed, rest) => if rest.dropWhile isSpace = [] then .ok parsed else .error invalid

def extractInt (source : Bytes) : Option (Int × Bytes) :=
  ((integerField source).toSigned 32).map (·, (integerField source).rest)

def extractUnsignedInt (negation : Negation) (source : Bytes) : Option (Nat × Bytes) :=
  ((integerField source).toUnsigned negation.bits 32).map (·, (integerField source).rest)

/-- `std::size_t` and `std::uint64_t`. -/
def extractUint64 (source : Bytes) : Option (Nat × Bytes) :=
  ((integerField source).toUnsigned 64 64).map (·, (integerField source).rest)

def apply (negation : Negation) (config : Config) (key value : Bytes) : Except Bytes Config :=
  if key = text "port" then
    (parseNumber extractInt value key).map fun parsed => { config with port := parsed }
  else if key = text "backlog" then
    (parseNumber extractInt value key).map fun parsed => { config with backlog := parsed }
  else if key = text "epoll_worker_count" then
    (parseNumber (extractUnsignedInt negation) value key).map fun parsed => { config with epollWorkerCount := parsed }
  else if key = text "thread_pool_size" then
    (parseNumber (extractUnsignedInt negation) value key).map fun parsed => { config with threadPoolSize := parsed }
  else if key = text "task_queue_capacity" then
    (parseNumber extractUint64 value key).map fun parsed => { config with taskQueueCapacity := parsed }
  else if key = text "log_path" then .ok { config with logPath := value }
  else if key = text "rate_limit_capacity" then
    (parseNumber readDouble value key).map fun parsed => { config with rateLimitCapacity := parsed }
  else if key = text "rate_limit_refill_rate" then
    (parseNumber readDouble value key).map fun parsed => { config with rateLimitRefillRate := parsed }
  else if key = text "storage_directory" then .ok { config with storageDirectory := value }
  else if key = text "storage_segment_size" then
    (parseNumber extractUint64 value key).map fun parsed => { config with storageSegmentSize := parsed }
  else if key = text "recent_message_capacity" then
    (parseNumber extractUint64 value key).map fun parsed => { config with recentMessageCapacity := parsed }
  else .error (text "Unknown configuration key: " ++ key)

def options : List (Bytes × Bytes) :=
  [(text "--port", text "port"), (text "--backlog", text "backlog"),
    (text "--epoll-workers", text "epoll_worker_count"), (text "--pool-threads", text "thread_pool_size"),
    (text "--queue-capacity", text "task_queue_capacity"), (text "--log-path", text "log_path"),
    (text "--rate-limit-capacity", text "rate_limit_capacity"),
    (text "--rate-limit-refill-rate", text "rate_limit_refill_rate"),
    (text "--storage-directory", text "storage_directory"),
    (text "--storage-segment-size", text "storage_segment_size"),
    (text "--recent-capacity", text "recent_message_capacity")]

def validate (config : Config) : Except Bytes Unit :=
  if config.port < 1 ∨ 65535 < config.port then .error (text "port must be between 1 and 65535")
  else if config.backlog < 1 then .error (text "backlog must be positive")
  else if 256 < config.epollWorkerCount then .error (text "epoll_worker_count must be at most 256")
  else if config.threadPoolSize < 1 ∨ 256 < config.threadPoolSize then
    .error (text "thread_pool_size must be between 1 and 256")
  else if config.taskQueueCapacity < 1 ∨ 2 ^ 20 < config.taskQueueCapacity then
    .error (text "task_queue_capacity must be between 1 and 1048576")
  else if config.rateLimitCapacity.isFinite = false ∨ config.rateLimitCapacity < 1.0 then
    .error (text "rate_limit_capacity must be finite and at least 1")
  else if config.rateLimitRefillRate.isFinite = false ∨ config.rateLimitRefillRate < 0.0 then
    .error (text "rate_limit_refill_rate must be finite and non-negative")
  else if config.storageDirectory = [] then .error (text "storage_directory must not be empty")
  else if config.storageSegmentSize < 73 ∨ 1024 * 1024 * 1024 < config.storageSegmentSize then
    .error (text "storage_segment_size must be between 73 bytes and 1 GiB")
  else if config.recentMessageCapacity = 0 ∨ 2 ^ 20 < config.recentMessageCapacity then
    .error (text "recent_message_capacity must be between 1 and 1048576")
  else .ok ()

theorem validate_default : validate {} = .ok () := by
  decide +kernel

/-- What `getline` gives until it fails: the last line need not be ended. -/
def getLines (contents : Bytes) : List Bytes :=
  let pieces := contents.splitOn 10
  if pieces.getLast? = some [] then pieces.dropLast else pieces

def applyLine (negation : Negation) (path : Bytes) (config : Config) (lineNumber : Nat) (line : Bytes) :
    Except Bytes Config :=
  let line := trim (line.takeWhile (· ≠ 35))
  if line = [] then .ok config
  else match find (text "=") line with
    | none => .error (text "Expected key=value at " ++ path ++ text ":" ++ Decimal.padded 1 lineNumber)
    | some separator =>
      let key := trim (line.take separator)
      let value := trim (line.drop (separator + 1))
      if key = [] ∨ value = [] then
        .error (text "Empty key or value at " ++ path ++ text ":" ++ Decimal.padded 1 lineNumber)
      else apply negation config key value

def applyLines (negation : Negation) (path : Bytes) : Nat → List Bytes → Config → Except Bytes Config
  | _, [], config => .ok config
  | lineNumber, line :: rest, config => do
    let config ← applyLine negation path config (lineNumber + 1) line
    applyLines negation path (lineNumber + 1) rest config

abbrev Files := Bytes → Option Bytes

/-- The part of `load_file` in front of its check: the defaults and the lines. -/
def readFile (negation : Negation) (files : Files) (path : Bytes) : Except Bytes Config :=
  match files path with
  | none => .error (text "Unable to open config file: " ++ path)
  | some contents => applyLines negation path 0 (getLines contents) {}

def loadFile (negation : Negation) (files : Files) (path : Bytes) : Except Bytes Config := do
  let config ← readFile negation files path
  validate config
  return config

/-- The first pass over the arguments. -/
def findConfig (configPath : Bytes) : List Bytes → Except Bytes Bytes
  | [] => .ok configPath
  | [option] => if option = text "--config" then .error (text "--config requires a path") else .ok configPath
  | option :: value :: rest =>
    if option = text "--config" then findConfig value rest else findConfig configPath (value :: rest)

/-- The second pass, which skips the paths. -/
def applyArguments (negation : Negation) (config : Config) : List Bytes → Except Bytes Config
  | [] => .ok config
  | [option] =>
    if option = text "--config" then .ok config
    else match options.lookup option with
      | none => .error (text "Unknown argument: " ++ option)
      | some _ => .error (option ++ text " requires a value")
  | option :: value :: rest =>
    if option = text "--config" then applyArguments negation config rest
    else match options.lookup option with
      | none => .error (text "Unknown argument: " ++ option)
      | some key => do
        let config ← apply negation config key value
        applyArguments negation config rest

def initial (negation : Negation) (files : Files) (configPath : Bytes) : Except Bytes Config :=
  if configPath = [] then .ok {} else loadFile negation files configPath

def fromArgs (negation : Negation) (files : Files) (arguments : List Bytes) : Except Bytes Config := do
  let configPath ← findConfig [] arguments
  let config ← initial negation files configPath
  let config ← applyArguments negation config arguments
  validate config
  return config

end FleetGateway.Core.Configuration
