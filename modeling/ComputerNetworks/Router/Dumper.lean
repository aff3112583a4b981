import ComputerNetworks.Core.Machine
import ComputerNetworks.Core.Records
import ComputerNetworks.Router.VnsComm

/-!
# The log file

`sr_dumper.c` and `sr_log_packet` of `sr_vns_comm.c`. The file is a header and one
record for each frame, in the form of `tcpdump`. Reading it back gives the frames
in the order in which they were logged, each cut to 1024 bytes; the length of what
has been cut off is not kept.
-/

namespace ComputerNetworks.Router

/-- `struct pcap_file_header`. -/
structure PcapFileHeader where
  magic : UInt32
  versionMajor : UInt16
  versionMinor : UInt16
  thiszone : Int32
  sigfigs : UInt32
  snaplen : UInt32
  linktype : UInt32
  deriving DecidableEq, Repr

/-- `TCPDUMP_MAGIC`. -/
def tcpdumpMagic : UInt32 := 0xa1b2c3d4

/-- `LINKTYPE_ETHERNET`. -/
def linktypeEthernet : Int32 := 1

/-- `PACKET_DUMP_SIZE`. -/
def packetDumpSize : Int32 := 1024

/-- The header in memory. -/
def PcapFileHeader.bytes (hdr : PcapFileHeader) : List UInt8 :=
  bytes32 hdr.magic ++ bytes16 hdr.versionMajor ++ bytes16 hdr.versionMinor ++
    bytes32 hdr.thiszone.toUInt32 ++ bytes32 hdr.sigfigs ++ bytes32 hdr.snaplen ++
    bytes32 hdr.linktype

/-- `sf_write_header`, on what the file holds. -/
def sfWriteHeader (fp : List UInt8) (linktype thiszone snaplen : Int32) : List UInt8 :=
  let hdr : PcapFileHeader :=
    ⟨tcpdumpMagic, 2, 4, thiszone, 0, snaplen.toUInt32, linktype.toUInt32⟩
  fp ++ hdr.bytes

/-- `sr_dump_open`, with what `fopen` does; the name `-` stands for the standard output. -/
def srDumpOpen (fopen : List UInt8 → Bool) (fname : List UInt8) (thiszone snaplen : Int32) :
    Option (List UInt8) :=
  if fname = [45] ∨ fopen fname then some (sfWriteHeader [] linktypeEthernet thiszone snaplen)
  else none

/-- `struct timeval`. -/
structure Timeval where
  tvSec : Int64
  tvUsec : Int64
  deriving DecidableEq, Repr

/-- `struct pcap_pkthdr`. -/
structure PcapPkthdr where
  ts : Timeval
  caplen : UInt32
  len : UInt32
  deriving DecidableEq, Repr

/-- `sr_dump`: the times are cut to an `int`. -/
def srDump (fp : List UInt8) (h : PcapPkthdr) (sp : List UInt8) : Exec VnsAssert (List UInt8) := do
  let sfHdr := bytes32 h.ts.tvSec.toInt32.toUInt32 ++ bytes32 h.ts.tvUsec.toInt32.toUInt32 ++
    bytes32 h.caplen ++ bytes32 h.len
  let bytes ← readAt sp 0 h.caplen.toNat
  pure (fp ++ sfHdr ++ bytes)

/-- A call of `sr_log_packet`: the time, the block that the frame is in, and the length. -/
structure LogCall where
  now : Timeval
  buf : List UInt8
  len : Int32
  deriving DecidableEq, Repr

/-- `sr_log_packet`, on the file. -/
def srLogPacket (logfile : Option (List UInt8)) (call : LogCall) :
    Exec VnsAssert (Option (List UInt8)) :=
  match logfile with
  | none => .ok none
  | some fp => do
    let size := if packetDumpSize < call.len then packetDumpSize else call.len
    let len := if size < packetDumpSize then size else packetDumpSize
    some <$> srDump fp ⟨call.now, size.toUInt32, len.toUInt32⟩ call.buf

/-- The number of bytes that are logged. -/
def LogCall.size (call : LogCall) : Nat :=
  (if packetDumpSize < call.len then packetDumpSize else call.len).toUInt32.toNat

/-- The bytes that are logged stand in the block. -/
def LogCall.Fits (call : LogCall) : Prop := call.size ≤ call.buf.length

instance LogCall.decidableFits (call : LogCall) : Decidable call.Fits :=
  inferInstanceAs (Decidable (_ ≤ _))

/-- A record, without the length of its data, which it says a second time. -/
structure PcapRecord where
  sec : Int32
  usec : Int32
  len : UInt32
  data : List UInt8
  data_length : data.length < 2 ^ 32

namespace PcapRecord

/-- The record in the file. -/
def bytes (r : PcapRecord) : List UInt8 :=
  bytes32 r.sec.toUInt32 ++ bytes32 r.usec.toUInt32 ++ bytes32 (UInt32.ofNat r.data.length) ++
    bytes32 r.len ++ r.data

theorem bytes_length (r : PcapRecord) : r.bytes.length = 16 + r.data.length := by
  simp only [bytes, List.length_append, bytes32_length]

theorem data_length_lt (s : List UInt8) :
    ((s.drop 16).take (word32 s 8).toNat).length < 2 ^ 32 :=
  (List.length_take_le _ _).trans_lt (word32 s 8).toNat_lt

/-- The first record of a text, if the text goes to its end. -/
def decode (s : List UInt8) : Option (PcapRecord × List UInt8) :=
  if 16 + (word32 s 8).toNat ≤ s.length then
    some (⟨(word32 s 0).toInt32, (word32 s 4).toInt32, word32 s 12,
      (s.drop 16).take (word32 s 8).toNat, data_length_lt s⟩, (s.drop 16).drop (word32 s 8).toNat)
  else none

/-- The four words of a record. -/
theorem words_bytes (r : PcapRecord) (rest : List UInt8) :
    word32 (r.bytes ++ rest) 0 = r.sec.toUInt32 ∧ word32 (r.bytes ++ rest) 4 = r.usec.toUInt32 ∧
      word32 (r.bytes ++ rest) 8 = UInt32.ofNat r.data.length ∧
      word32 (r.bytes ++ rest) 12 = r.len := by
  simp only [bytes, List.append_assoc]
  refine ⟨?_, ?_, ?_, ?_⟩
  · exact @word32_bytes32 [] 0 rfl _ _
  · rw [← List.append_assoc]
    exact word32_bytes32 rfl _ _
  · rw [← List.append_assoc, ← List.append_assoc]
    exact word32_bytes32 rfl _ _
  · rw [← List.append_assoc, ← List.append_assoc, ← List.append_assoc]
    exact word32_bytes32 rfl _ _

/-- A record is read back from in front of anything. -/
theorem decode_bytes (r : PcapRecord) (rest : List UInt8) :
    decode (r.bytes ++ rest) = some (r, rest) := by
  obtain ⟨hsec, husec, hcaplen, hlen⟩ := words_bytes r rest
  have hsize : (UInt32.ofNat r.data.length).toNat = r.data.length :=
    UInt32.toNat_ofNat_of_lt' r.data_length
  have hdrop : (r.bytes ++ rest).drop 16 = r.data ++ rest := by
    rw [bytes, List.append_assoc _ r.data]
    exact List.drop_left' rfl
  have hlength : 16 + r.data.length ≤ (r.bytes ++ rest).length := by
    rw [List.length_append, bytes_length]
    exact Nat.le_add_right _ _
  simp only [decode, hsec, husec, hcaplen, hlen, hsize, if_pos hlength, hdrop, List.take_left,
    List.drop_left]
  rfl

/-- The form of the records. -/
def format : RecordFormat PcapRecord where
  encode := bytes
  decode := decode
  decode_encode := decode_bytes
  encode_ne_nil := fun _ => List.cons_ne_nil _ _

end PcapRecord

/-- The header at the start of a text. -/
def pcapFileHeaderAt (s : List UInt8) : PcapFileHeader :=
  ⟨word32 s 0, word16 s 4, word16 s 6, (word32 s 8).toInt32, word32 s 12, word32 s 16, word32 s 20⟩

/-- A reader of such files. -/
def readCapture (s : List UInt8) : Option (PcapFileHeader × List PcapRecord) :=
  if 24 ≤ s.length ∧ word32 s 0 = tcpdumpMagic then
    (PcapRecord.format.decodeAll (s.drop 24)).map fun records => (pcapFileHeaderAt s, records)
  else none

theorem PcapFileHeader.bytes_length (hdr : PcapFileHeader) : hdr.bytes.length = 24 := rfl

/-- The file header is read back from in front of anything. -/
theorem pcapFileHeaderAt_bytes (hdr : PcapFileHeader) (rest : List UInt8) :
    pcapFileHeaderAt (hdr.bytes ++ rest) = hdr := by
  obtain ⟨magic, major, minor, thiszone, sigfigs, snaplen, linktype⟩ := hdr
  simp only [pcapFileHeaderAt, PcapFileHeader.bytes, PcapFileHeader.mk.injEq]
  refine ⟨?_, ?_, ?_, ?_, ?_, ?_, ?_⟩
  · simp only [List.append_assoc]
    exact @word32_bytes32 [] 0 rfl _ _
  · simp only [List.append_assoc]
    rw [← List.append_assoc]
    exact word16_bytes16 rfl _ _
  · simp only [List.append_assoc (_ ++ bytes16 minor)]
    exact word16_bytes16 rfl _ _
  · simp only [List.append_assoc (_ ++ bytes32 thiszone.toUInt32)]
    exact (congrArg UInt32.toInt32 (word32_bytes32 rfl _ _)).trans (Int32.toInt32_toUInt32 thiszone)
  · simp only [List.append_assoc (_ ++ bytes32 sigfigs)]
    exact word32_bytes32 rfl _ _
  · rw [List.append_assoc (_ ++ bytes32 snaplen)]
    exact word32_bytes32 rfl _ _
  · exact word32_bytes32 rfl _ _

/-- A file with records behind its header is read back. -/
theorem readCapture_eq {hdr : PcapFileHeader} (hmagic : hdr.magic = tcpdumpMagic)
    (records : List PcapRecord) :
    readCapture (hdr.bytes ++ records.flatMap PcapRecord.bytes) = some (hdr, records) := by
  have hrecords : PcapRecord.format.decodeAll (records.flatMap PcapRecord.bytes) = some records :=
    RecordFormat.decodeAll_encode records
  have hheader := pcapFileHeaderAt_bytes hdr (records.flatMap PcapRecord.bytes)
  have hmagic' := congrArg PcapFileHeader.magic hheader
  have hlong : 24 ≤ (hdr.bytes ++ records.flatMap PcapRecord.bytes).length := by
    rw [List.length_append, hdr.bytes_length]
    exact Nat.le_add_right _ _
  rw [readCapture, if_pos ⟨hlong, hmagic'.trans hmagic⟩, hheader, List.drop_left' hdr.bytes_length,
    hrecords]
  rfl

/-- The calls of `sr_log_packet`, one after the other. -/
def logMachine : Machine VnsAssert (Option (List UInt8)) LogCall where
  enabled := fun _ _ => True
  step := srLogPacket

theorem LogCall.data_length_lt (call : LogCall) : (call.buf.take call.size).length < 2 ^ 32 :=
  (List.length_take_le _ _).trans_lt (UInt32.toNat_lt _)

/-- The record of a call: its length is that of what is kept. -/
def LogCall.record (call : LogCall) : PcapRecord where
  sec := call.now.tvSec.toInt32
  usec := call.now.tvUsec.toInt32
  len := UInt32.ofNat (call.buf.take call.size).length
  data := call.buf.take call.size
  data_length := call.data_length_lt

/-- Both lengths of a record are the number of bytes that are logged. -/
theorem srLogPacket_some (fp : List UInt8) (call : LogCall) :
    srLogPacket (some fp) call = (do
      let bytes ← readAt call.buf 0 call.size
      pure (some (fp ++ (bytes32 call.now.tvSec.toInt32.toUInt32 ++
        bytes32 call.now.tvUsec.toInt32.toUInt32 ++ bytes32 (UInt32.ofNat call.size) ++
        bytes32 (UInt32.ofNat call.size)) ++ bytes))) := by
  have hlen : ∀ size : Int32, size ≤ packetDumpSize →
      (if size < packetDumpSize then size else packetDumpSize) = size := by
    intro size hle
    split
    · rfl
    · next hnot =>
      rw [Int32.le_iff_toInt_le] at hle
      rw [Int32.lt_iff_toInt_lt] at hnot
      apply Int32.toInt.inj
      omega
  have hsize : (if packetDumpSize < call.len then packetDumpSize else call.len) ≤
      packetDumpSize := by
    split
    · exact Int32.le_refl _
    · next hnot =>
      rw [Int32.lt_iff_toInt_lt] at hnot
      rw [Int32.le_iff_toInt_le]
      omega
  simp only [srLogPacket, srDump, hlen _ hsize, LogCall.size, UInt32.ofNat_toNat]
  cases (readAt call.buf 0 _ : Exec VnsAssert (List UInt8)) with
  | error fault => rfl
  | ok bytes => rfl

/-- A call that fits reads what it logs. -/
theorem LogCall.Fits.read {call : LogCall} (h : call.Fits) :
    (readAt call.buf 0 call.size : Exec VnsAssert (List UInt8)) = .ok
      (call.buf.take call.size) := by
  rw [readAt_of_le (by rw [Nat.zero_add]; exact h), List.drop_zero]

/-- A call whose bytes are there appends its record. -/
theorem srLogPacket_fits {call : LogCall} (h : call.Fits) (fp : List UInt8) :
    srLogPacket (some fp) call = .ok (some (fp ++ call.record.bytes)) := by
  have hlength : (call.buf.take call.size).length = call.size := by
    rw [List.length_take]
    exact Nat.min_eq_left h
  rw [srLogPacket_some, h.read]
  simp only [PcapRecord.bytes, LogCall.record, hlength, List.append_assoc]
  rfl

/-- Any other reads past the block. -/
theorem srLogPacket_not_fits {call : LogCall} (h : ¬call.Fits) (fp : List UInt8) :
    srLogPacket (some fp) call = .error .outOfBounds := by
  have hread : (readAt call.buf 0 call.size : Exec VnsAssert (List UInt8)) =
      .error .outOfBounds := by
    rw [readAt, if_neg]
    rw [Nat.zero_add]
    exact h
  rw [srLogPacket_some, hread]
  rfl

/-- The session of the reader logs the same bytes. -/
theorem logPacket_fits {call : LogCall} (h : call.Fits) {vs : VnsSession}
    {log : List (List UInt8)} (hlog : vs.log = some log) :
    logPacket vs call.buf call.len = .ok { vs with log := some (log ++ [call.record.data]) } := by
  rw [logPacket, hlog]
  simp only
  rw [show (if (1024 : Int32) < call.len then (1024 : Int32) else call.len).toUInt32.toNat =
    call.size from rfl, h.read]
  rfl

/-- The file behind the calls so far. -/
theorem logMachine_run (fp : List UInt8) (calls : List LogCall) :
    logMachine.run (some fp) calls =
      if ∀ call ∈ calls, call.Fits then
        .ok (some (fp ++ (calls.map LogCall.record).flatMap PcapRecord.bytes))
      else .error .outOfBounds := by
  induction calls generalizing fp with
  | nil =>
    rw [if_pos (List.forall_mem_nil _), List.map_nil, List.flatMap_nil, List.append_nil]
    rfl
  | cons call calls ih =>
    by_cases hcall : call.Fits
    · have hstep : logMachine.step (some fp) call = .ok (some (fp ++ call.record.bytes)) :=
        srLogPacket_fits hcall fp
      have hiff : (∀ c ∈ call :: calls, c.Fits) ↔ ∀ c ∈ calls, c.Fits := by
        rw [List.forall_mem_cons]
        exact and_iff_right hcall
      rw [Machine.run_of_ok hstep, ih, List.map_cons, List.flatMap_cons, List.append_assoc]
      simp only [hiff]
    · have hstep : logMachine.step (some fp) call = .error .outOfBounds :=
        srLogPacket_not_fits hcall fp
      rw [Machine.run_of_error hstep, if_neg]
      exact fun h => hcall (h call List.mem_cons_self)

/-- The session behind the calls so far. -/
theorem foldlM_logPacket {vs : VnsSession} {log : List (List UInt8)} (hlog : vs.log = some log)
    {calls : List LogCall} (h : ∀ call ∈ calls, call.Fits) :
    calls.foldlM (fun vs call => logPacket vs call.buf call.len) vs =
      .ok { vs with log := some (log ++ (calls.map LogCall.record).map PcapRecord.data) } := by
  induction calls generalizing vs log with
  | nil =>
    rw [List.foldlM_nil, List.map_nil, List.map_nil, List.append_nil, ← hlog]
    rfl
  | cons call calls ih =>
    obtain ⟨hcall, h⟩ := List.forall_mem_cons.1 h
    rw [List.foldlM_cons, logPacket_fits hcall hlog, Exec.ok_bind, ih rfl h, List.map_cons,
      List.map_cons, List.append_assoc]
    rfl

/-- The header that `main` has written. -/
def mainHeader : PcapFileHeader := ⟨tcpdumpMagic, 2, 4, 0, 0, 1024, 1⟩

/-- Whatever is logged, in whatever order, the calls return exactly if each finds its bytes in its
block, and then the file holds one record for each, in their order, with the bytes that the session
has in its log. -/
theorem capture_run {fopen : List UInt8 → Bool} {fname fp : List UInt8} {vs : VnsSession}
    (hopen : srDumpOpen fopen fname 0 packetDumpSize = some fp) (hlog : vs.log = some [])
    (calls : List LogCall) :
    ((∃ logfile, logMachine.run (some fp) calls = .ok logfile) ↔ ∀ call ∈ calls, call.Fits) ∧
      ∀ logfile, logMachine.run (some fp) calls = .ok logfile → ∃ fp', logfile = some fp' ∧
        readCapture fp' = some (mainHeader, calls.map LogCall.record) ∧
        calls.foldlM (fun vs call => logPacket vs call.buf call.len) vs =
          .ok { vs with log := some ((calls.map LogCall.record).map PcapRecord.data) } := by
  have hfp : fp = mainHeader.bytes := by
    unfold srDumpOpen at hopen
    split at hopen
    · cases hopen
      rfl
    · cases hopen
  rw [logMachine_run]
  by_cases h : ∀ call ∈ calls, call.Fits
  · rw [if_pos h]
    refine ⟨iff_of_true ⟨_, rfl⟩ h, ?_⟩
    intro logfile hrun
    cases hrun
    refine ⟨_, rfl, ?_, foldlM_logPacket hlog h⟩
    rw [hfp]
    exact readCapture_eq rfl _
  · rw [if_neg h]
    refine ⟨iff_of_false (fun ⟨_, hrun⟩ => nomatch hrun) h, ?_⟩
    intro logfile hrun
    cases hrun

/-- A frame that is cut, and one that is not. -/
def twoFrames : List LogCall :=
  [⟨⟨1700000000, 5⟩, List.replicate 1500 7, 1500⟩, ⟨⟨1700000001, 0⟩, List.replicate 60 9, 60⟩]

/-- A session with an empty log. -/
def loggingSession : VnsSession where
  sr := ⟨[], [], arpcacheInit (fun _ => none) fun _ => none, [], []⟩
  user := []
  log := some []
  files := []
  sent := []
  isOpen := true

theorem capture_run_twoFrames :
    ∃ fp, logMachine.run (some mainHeader.bytes) twoFrames = .ok (some fp) ∧
      readCapture fp = some (mainHeader, twoFrames.map LogCall.record) := by
  obtain ⟨hreturns, hfile⟩ :=
    @capture_run (fun _ => true) [97] mainHeader.bytes loggingSession rfl rfl twoFrames
  obtain ⟨logfile, hrun⟩ := hreturns.2 (by decide +kernel)
  obtain ⟨fp, rfl, hread, -⟩ := hfile logfile hrun
  exact ⟨fp, hrun, hread⟩

end ComputerNetworks.Router
