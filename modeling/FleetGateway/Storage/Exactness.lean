import FleetGateway.Storage.Segment

/-! `scan_segment` inverts the writer on arbitrary bytes: behind a valid header it finds
the longest list of records that stands there, whoever wrote the file. -/

namespace FleetGateway.Storage.Exactness
open Library Library.ByteStore Format Record Disk Scan Segment

/-- Record encodings with chained offsets, one after the other behind the segment header. -/
structure Stands (base : Nat) (bytes : Bytes) (messages : List Message) : Prop where
  chain : Chain base messages
  here : encodeRecords messages <+: bytes.drop segmentHeaderSize

structure Longest (base : Nat) (bytes : Bytes) (messages : List Message) : Prop where
  stands : Stands base bytes messages
  maximal : ∀ other, Stands base bytes other → other.length ≤ messages.length

section Lists

variable {segmentSize id base : Nat} {bytes : Bytes}

theorem stands_scanned (opens : Opens segmentSize id base bytes) :
    Stands base bytes (scanned segmentSize base bytes) := by
  obtain ⟨chain, _, here⟩ := scanned_sound opens
  exact ⟨chain, _, here.symm⟩

theorem Stands.scanned {messages : List Message} (stands : Stands base bytes messages)
    (opens : Opens segmentSize id base bytes) : messages <+: Segment.scanned segmentSize base bytes := by
  obtain ⟨chain, rest, here⟩ := stands
  have long := opens.long
  have limit := opens.limit
  have lengths := congrArg List.length here
  simp only [List.length_append, length_encodeRecords, List.length_drop] at lengths
  have inside : segmentHeaderSize + totalSize messages ≤ segmentSize := by omega
  obtain ⟨fuel, run⟩ := scanned_append messages rest chain inside here.symm
  rw [run]
  exact List.prefix_append _ _

theorem longest_scanned (opens : Opens segmentSize id base bytes) :
    Longest base bytes (scanned segmentSize base bytes) :=
  ⟨stands_scanned opens, fun _ stands => (stands.scanned opens).length_le⟩

theorem Longest.eq_scanned {messages : List Message} (longest : Longest base bytes messages)
    (opens : Opens segmentSize id base bytes) : messages = Segment.scanned segmentSize base bytes :=
  (longest.stands.scanned opens).eq_of_length_le (longest.maximal _ (stands_scanned opens))

theorem Stands.totalSize_le {messages : List Message} (stands : Stands base bytes messages) :
    totalSize messages ≤ bytes.length := by
  have short := stands.here.length_le
  rw [length_encodeRecords, List.length_drop] at short
  omega

end Lists

/-- A file of any content behind a valid header: there is one longest list of records. The
scan pushes exactly that list and reports its ends. A sealed file is accepted when only
zeros follow the list and is never changed; the newest file is accepted always, and is
left with its records and nothing but zeros behind them. -/
theorem recovery_exact (segmentSize id base : Nat) (path : Bytes) (file : File) (idBound : id < 2 ^ 32)
    (sizeBound : segmentSize < 2 ^ 64) (long : segmentHeaderSize ≤ file.bytes.length)
    (limit : file.bytes.length ≤ segmentSize)
    (header : checkSegmentHeader segmentSize id (slice file.bytes 0 segmentHeaderSize) = true)
    (sameBase : getU64 ((slice file.bytes 0 segmentHeaderSize).drop 16) = base)
    (bounded : ∀ messages, Longest base file.bytes messages → base + totalSize messages ≤ maxU64) :
    ∃ messages, Longest base file.bytes messages ∧
      (∀ other, Longest base file.bytes other → other = messages) ∧
      let position := segmentHeaderSize + totalSize messages
      let info : LogSegmentInfo := ⟨id, base, base + totalSize messages, position, path⟩
      let sealedScan := scanSegment noFaults segmentSize id path false base file
      let newestScan := scanSegment noFaults segmentSize id path true base file
      (sealedScan.messages = messages ∧ sealedScan.file = file ∧
        (isZero (file.bytes.drop position) = true → sealedScan.result = .ok info) ∧
        (isZero (file.bytes.drop position) = false → ∃ error, sealedScan.result = .error error)) ∧
      (newestScan.messages = messages ∧ newestScan.result = .ok info ∧
        isZero (newestScan.file.bytes.drop position) = true ∧
        newestScan.file.bytes.take position = file.bytes.take position) := by
  have opens := opens_of_checks idBound sizeBound long limit header sameBase
  have within := bounded _ (longest_scanned opens)
  have baseBound : base < 2 ^ 64 := sameBase ▸ getU64_lt _
  refine ⟨scanned segmentSize base file.bytes, longest_scanned opens, fun _ longest => longest.eq_scanned opens, ?_⟩
  intro position info sealedScan newestScan
  obtain ⟨whole, _, refused⟩ := scanSegment_eq opens idBound baseBound sizeBound path false file.durable within
  obtain ⟨kept, repaired, _⟩ := scanSegment_eq opens idBound baseBound sizeBound path true file.durable within
  cases zero : isZero (file.bytes.drop position) with
  | true =>
    have accepted : sealedScan = ⟨scanned segmentSize base file.bytes, file, .ok info⟩ := whole zero
    have intact : newestScan = ⟨scanned segmentSize base file.bytes, file, .ok info⟩ := kept zero
    rw [accepted, intact]
    exact ⟨⟨rfl, rfl, fun _ => rfl, (fun impossible => by cases impossible)⟩, rfl, rfl, zero, rfl⟩
  | false =>
    obtain ⟨error, refusal⟩ := refused zero rfl
    have rejected : sealedScan = ⟨scanned segmentSize base file.bytes, file, .error error⟩ := refusal
    have cut : newestScan = ⟨scanned segmentSize base file.bytes,
        ⟨file.bytes.take position, min file.durable position⟩, .ok info⟩ := repaired zero rfl
    have nothing : (file.bytes.take position).drop position = [] :=
      List.drop_eq_nil_of_le (List.length_take_le _ _)
    rw [rejected, cut]
    refine ⟨⟨rfl, rfl, (fun impossible => by cases impossible), fun _ => ⟨error, rfl⟩⟩, rfl, rfl, ?_, ?_⟩
    · rw [nothing]
      rfl
    · exact List.take_take.trans (by rw [Nat.min_self])

/-- One record and a byte behind it: the newest file is cut there, a sealed one refused. -/
theorem recovery_exact_damaged :
    let message : Message := ⟨7, 5, 2, [1, 2]⟩
    let file : File := ⟨segmentHeader 3 7 120 ++ encodeRecord message ++ [0, 9], 0⟩
    (scanSegment noFaults 120 3 [] true 7 file).messages = [message] ∧
      (scanSegment noFaults 120 3 [] true 7 file).file.bytes.length = 74 ∧
    ∃ messages, Longest 7 file.bytes messages ∧ (∀ other, Longest 7 file.bytes other → other = messages) ∧
      let position := segmentHeaderSize + totalSize messages
      let info : LogSegmentInfo := ⟨3, 7, 7 + totalSize messages, position, []⟩
      let sealedScan := scanSegment noFaults 120 3 [] false 7 file
      let newestScan := scanSegment noFaults 120 3 [] true 7 file
      (sealedScan.messages = messages ∧ sealedScan.file = file ∧
        (isZero (file.bytes.drop position) = true → sealedScan.result = .ok info) ∧
        (isZero (file.bytes.drop position) = false → ∃ error, sealedScan.result = .error error)) ∧
      (newestScan.messages = messages ∧ newestScan.result = .ok info ∧
        isZero (newestScan.file.bytes.drop position) = true ∧
        newestScan.file.bytes.take position = file.bytes.take position) := by
  intro message file
  have length : file.bytes.length = 76 := by decide +kernel
  refine ⟨by decide +kernel, by decide +kernel, ?_⟩
  refine recovery_exact 120 3 7 [] file (by decide) (by decide) (by rw [length]; decide) (by rw [length]; decide)
    (by decide +kernel) (by decide +kernel) (fun messages longest => ?_)
  have short := longest.stands.totalSize_le
  simp only [maxU64]
  omega

end FleetGateway.Storage.Exactness
