import VirtualChime.Library.Binary64
import VirtualChime.Library.Riff
import VirtualChime.RingSounds

/-!
# Playing a sound at a volume

`ScalePcmWavInMemory` and the part of `AplayAudioPlayer::Play` that falls back on it.
An upload is checked by its first twelve bytes only; what the scaling needs of a sound
beyond them is `Scalable`.
-/

namespace VirtualChime.AplayAudioPlayer

open Riff (Chunk encodeAll lastOf)

/-! ## 1. Bytes -/

def readLe16 (data : Bytes) (offset : Nat) : Nat :=
  (data.getD offset 0).toNat ||| (data.getD (offset + 1) 0).toNat <<< 8

def readLe32 (data : Bytes) (offset : Nat) : Nat :=
  (data.getD offset 0).toNat ||| (data.getD (offset + 1) 0).toNat <<< 8 |||
    (data.getD (offset + 2) 0).toNat <<< 16 ||| (data.getD (offset + 3) 0).toNat <<< 24

def writeLe16 (data : Bytes) (offset value : Nat) : Bytes :=
  (data.set offset (UInt8.ofNat (value &&& 255))).set (offset + 1)
    (UInt8.ofNat (value >>> 8 &&& 255))

/-! ## 2. The chunks of a sound -/

def fmtId : Bytes := bytes "fmt "

def dataId : Bytes := bytes "data"

/-- What the walk over the chunks keeps. -/
structure WavChunks where
  have_fmt : Bool := false
  have_data : Bool := false
  audio_format : Nat := 0
  bits_per_sample : Nat := 0
  data_offset : Nat := 0
  data_size : Nat := 0
deriving DecidableEq, Repr

/-- What one pass of the walk keeps of a chunk. -/
def WavChunks.note (s : WavChunks) (wav chunk_id : Bytes) (chunk_data chunk_size : Nat) :
    WavChunks :=
  if chunk_id = fmtId then
    { s with
      audio_format := readLe16 wav chunk_data
      bits_per_sample := readLe16 wav (chunk_data + 14)
      have_fmt := true }
  else if chunk_id = dataId then
    { s with data_offset := chunk_data, data_size := chunk_size, have_data := true }
  else s

/-- One pass of the loop of `ScalePcmWavInMemory`: the next cursor. -/
def readChunk (wav : Bytes) (chunk_header : Nat) (s : WavChunks) :
    Except Bytes (Nat × WavChunks) :=
  let chunk_size := readLe32 wav (chunk_header + 4)
  let chunk_data := chunk_header + 8
  let chunk_end := chunk_data + chunk_size
  let chunk_id := (wav.drop chunk_header).take 4
  let padding := if chunk_size % 2 = 1 then 1 else 0
  if chunk_size > wav.length - chunk_data then .error (bytes "corrupt wav chunk size")
  else if chunk_id = fmtId ∧ chunk_size < 16 then .error (bytes "invalid fmt chunk")
  else if padding > wav.length - chunk_end then .error (bytes "corrupt wav chunk padding")
  else .ok (chunk_end + padding, s.note wav chunk_id chunk_data chunk_size)

theorem padding_eq (n : Nat) : (if n % 2 = 1 then 1 else 0) = n % 2 := by
  split <;> omega

/-- A pass that goes on has found a chunk that fits. -/
theorem readChunk_ok {wav : Bytes} {chunk_header next : Nat} {s s' : WavChunks}
    (h : readChunk wav chunk_header s = .ok (next, s')) :
    let size := readLe32 wav (chunk_header + 4)
    size ≤ wav.length - (chunk_header + 8) ∧ size % 2 ≤ wav.length - (chunk_header + 8 + size) ∧
      next = chunk_header + 8 + size + size % 2 := by
  intro size
  rw [readChunk, padding_eq] at h
  split at h
  · cases h
  · next hsize =>
    split at h
    · cases h
    · split at h
      · cases h
      · next hpad =>
        have hnext := congrArg Prod.fst (Except.ok.inj h)
        exact ⟨Nat.not_lt.mp hsize, Nat.not_lt.mp hpad, hnext.symm⟩

/-- The loop of `ScalePcmWavInMemory`. -/
def walkChunks (wav : Bytes) (cursor : Nat) (s : WavChunks) : Except Bytes WavChunks :=
  if cursor ≤ wav.length - 8 then
    match _h : readChunk wav cursor s with
    | .error error => .error error
    | .ok (next, s) => walkChunks wav next s
  else .ok s
termination_by wav.length + 1 - cursor
decreasing_by
  have hnext := (readChunk_ok _h).2.2
  omega

/-! ## 3. The samples -/

/-- The double nearest to a number of this size. -/
def toDouble (q : ℚ) : ℚ := (Binary64.round q).getD 0

/-- The nearest integer, and of two the one further from zero. -/
def lround (q : ℚ) : Int := if q < 0 then -⌊-q + 1 / 2⌋ else ⌊q + 1 / 2⌋

def clamp (value low high : Int) : Int :=
  if value < low then low else if high < value then high else value

def gainOf (effective_volume : Int) : ℚ := toDouble (effective_volume / 100)

/-- A sample times the gain. -/
def scaleSample (gain : ℚ) (sample : Int) : Int := lround (toDouble (sample * gain))

def scaleSamples16 (gain : ℚ) (data_offset data_size i : Nat) (wav : Bytes) : Bytes :=
  if i + 1 < data_size then
    let sample_offset := data_offset + i
    let sample := Int.bmod (readLe16 wav sample_offset) (2 ^ 16)
    let clamped := clamp (scaleSample gain sample) (-32768) 32767
    scaleSamples16 gain data_offset data_size (i + 2)
      (writeLe16 wav sample_offset (clamped % 2 ^ 16).toNat)
  else wav
termination_by data_size - i

def scaleSamples8 (gain : ℚ) (data_offset data_size i : Nat) (wav : Bytes) : Bytes :=
  if i < data_size then
    let sample_offset := data_offset + i
    let centered := (wav.getD sample_offset 0).toNat - (128 : Int)
    let clamped := clamp (scaleSample gain centered) (-128) 127
    scaleSamples8 gain data_offset data_size (i + 1)
      (wav.set sample_offset (UInt8.ofNat (clamped + 128).toNat))
  else wav
termination_by data_size - i

/-- `ScalePcmWavInMemory` from the end of the walk on. -/
def scaleData (wav : Bytes) (effective_volume : Int) (s : WavChunks) : Except Bytes Bytes :=
  if !s.have_fmt || !s.have_data then .error (bytes "missing fmt or data chunk")
  else if s.audio_format ≠ 1 then .error (bytes "unsupported wav encoding (only PCM supported)")
  else if s.bits_per_sample = 16 then
    if s.data_size % 2 ≠ 0 then .error (bytes "invalid 16-bit PCM data size")
    else .ok (scaleSamples16 (gainOf effective_volume) s.data_offset s.data_size 0 wav)
  else if s.bits_per_sample = 8 then
    .ok (scaleSamples8 (gainOf effective_volume) s.data_offset s.data_size 0 wav)
  else .error (bytes "unsupported bits_per_sample=" ++ natDecimal s.bits_per_sample)

/-- The scaled sound, or the text of the error. -/
def scalePcmWavInMemory (wav : Bytes) (effective_volume : Int) : Except Bytes Bytes :=
  if wav.length < 44 then .error (bytes "wav too small")
  else if wav.take 4 ≠ bytes "RIFF" ∨ (wav.drop 8).take 4 ≠ bytes "WAVE" then
    .error (bytes "not a RIFF/WAVE file")
  else
    match walkChunks wav 12 {} with
    | .error error => .error error
    | .ok s => scaleData wav effective_volume s

/-! ## 4. Playing -/

/-- What becomes of the commands and the file operations of a playback. -/
structure PlaybackIo where
  -- one of the mixer controls takes the volume
  mixerSet : Bool := false
  sourceRead : Bool := true
  tempCreated : Bool := true
  scaledWritten : Bool := true

def createSoftwareScaledWav (sound : Bytes) (effective_volume : Int) (io : PlaybackIo) :
    Except Bytes Bytes :=
  if !io.sourceRead then .error (bytes "failed to read source wav")
  else
    match scalePcmWavInMemory sound effective_volume with
    | .error error => .error error
    | .ok scaled =>
        if !io.tempCreated then .error (bytes "failed to create temp file")
        else if !io.scaledWritten then .error (bytes "failed to write scaled wav")
        else .ok scaled

/-- What `aplay` is given, and why the software volume is not available where it was needed. -/
structure Playback where
  played : Bytes
  unavailable : Option Bytes := none
deriving DecidableEq, Repr

/-- The part of `Play` on the playback thread before `aplay` is run. -/
def play (sound : Bytes) (volume_percent : Int) (io : PlaybackIo) : Playback :=
  let effective_volume := clamp volume_percent 0 100
  if !io.mixerSet ∧ effective_volume < 100 then
    match createSoftwareScaledWav sound effective_volume io with
    | .ok scaled => { played := scaled }
    | .error scale_error => { played := sound, unavailable := some scale_error }
  else { played := sound }

/-! ## 5. The walk -/

theorem getD_drop (bs : Bytes) (n i : Nat) : (bs.drop n).getD i 0 = bs.getD (n + i) 0 := by
  rw [List.getD_eq_getElem?_getD, List.getD_eq_getElem?_getD, List.getElem?_drop]

/-- Putting bytes together with shifts is adding them up. -/
theorem readLe32_eq (data : Bytes) (offset : Nat) :
    readLe32 data offset =
      Riff.ofLe [data.getD offset 0, data.getD (offset + 1) 0, data.getD (offset + 2) 0,
        data.getD (offset + 3) 0] := by
  rw [readLe32]
  generalize data.getD offset 0 = b0, data.getD (offset + 1) 0 = b1,
    data.getD (offset + 2) 0 = b2, data.getD (offset + 3) 0 = b3
  have h0 := b0.toNat_lt
  have h1 := b1.toNat_lt
  have h2 := b2.toNat_lt
  have hlow : b0.toNat ||| b1.toNat <<< 8 = b0.toNat + 256 * b1.toNat := by
    rw [Nat.or_comm, ← Nat.shiftLeft_add_eq_or_of_lt h0, Nat.shiftLeft_eq]
    omega
  have hmid : (b0.toNat + 256 * b1.toNat) ||| b2.toNat <<< 16 =
      b0.toNat + 256 * b1.toNat + 65536 * b2.toNat := by
    rw [Nat.or_comm, ← Nat.shiftLeft_add_eq_or_of_lt (by omega), Nat.shiftLeft_eq]
    omega
  rw [hlow, hmid, Nat.or_comm, ← Nat.shiftLeft_add_eq_or_of_lt (by omega), Nat.shiftLeft_eq]
  simp only [Riff.ofLe_cons, Riff.ofLe_nil]
  omega

theorem readLe32_eq_ofLe {data : Bytes} {offset : Nat} (h : offset + 4 ≤ data.length) :
    readLe32 data offset = Riff.ofLe ((data.drop offset).take 4) := by
  have hlen : 4 ≤ (data.drop offset).length := by
    rw [List.length_drop]
    omega
  rw [readLe32_eq]
  congr 1
  rw [← Nat.add_zero offset, ← getD_drop, Nat.add_zero, ← getD_drop, ← getD_drop, ← getD_drop]
  match hrest : data.drop offset, hlen with
  | a :: b :: c :: d :: rest, _ => rfl

/-- What the walk keeps of a chunk, told from its data. -/
def WavChunks.record (s : WavChunks) (chunk_data : Nat) (c : Chunk) : WavChunks :=
  if c.id = fmtId then
    { s with
      audio_format := readLe16 c.data 0
      bits_per_sample := readLe16 c.data 14
      have_fmt := true }
  else if c.id = dataId then
    { s with data_offset := chunk_data, data_size := c.data.length, have_data := true }
  else s

section AtChunk

variable {wav tail : Bytes} {cursor : Nat} {c : Chunk}

theorem length_of_chunk (h : wav.drop cursor = c.encode ++ tail) :
    wav.length = cursor + (8 + c.data.length + c.data.length % 2) + tail.length := by
  have hlen := congrArg List.length h
  rw [List.length_drop, List.length_append, c.length_encode] at hlen
  omega

theorem readLe32_of_chunk (h : wav.drop cursor = c.encode ++ tail) :
    readLe32 wav (cursor + 4) = c.data.length := by
  have hlen := length_of_chunk h
  rw [readLe32_eq_ofLe (by omega), ← List.drop_drop, h, c.take_size, Riff.ofLe_le32 c.data_length]

theorem readLe16_of_chunk (h : wav.drop cursor = c.encode ++ tail) {i : Nat}
    (hi : i + 1 < c.data.length) : readLe16 wav (cursor + 8 + i) = readLe16 c.data i := by
  have hget : ∀ j < c.data.length, wav.getD (cursor + 8 + j) 0 = c.data.getD j 0 := by
    intro j hj
    rw [← getD_drop, ← List.drop_drop, h, c.drop_size]
    rw [List.getD_eq_getElem?_getD, List.getD_eq_getElem?_getD, List.getElem?_append_left hj]
  rw [readLe16, readLe16, hget i (by omega), Nat.add_assoc, hget (i + 1) hi]

/-- A pass over a chunk. -/
theorem readChunk_of_chunk (h : wav.drop cursor = c.encode ++ tail) (s : WavChunks) :
    readChunk wav cursor s =
      if c.id = fmtId ∧ c.data.length < 16 then .error (bytes "invalid fmt chunk")
      else .ok (cursor + c.encode.length, s.record (cursor + 8) c) := by
  have hlen := length_of_chunk h
  have hid : (wav.drop cursor).take 4 = c.id := by rw [h, c.take_id]
  rw [readChunk, readLe32_of_chunk h, hid, padding_eq, if_neg (by omega)]
  split
  · rfl
  · next hfmt =>
    have hnote : s.note wav c.id (cursor + 8) c.data.length = s.record (cursor + 8) c := by
      rw [WavChunks.note, WavChunks.record]
      split
      · next hid =>
        have hlong : 16 ≤ c.data.length := Nat.not_lt.mp fun hlt => hfmt ⟨hid, hlt⟩
        rw [← readLe16_of_chunk h (by omega), ← readLe16_of_chunk h (by omega), Nat.add_zero]
      · rfl
    rw [if_neg (by omega), hnote, c.length_encode]
    congr 2
    omega

end AtChunk

/-- A pass goes on where there is a chunk, a `fmt ` chunk of at least 16 bytes. -/
theorem readChunk_ok_iff {wav : Bytes} {cursor next : Nat} {s s' : WavChunks}
    (hcursor : cursor + 8 ≤ wav.length) :
    readChunk wav cursor s = .ok (next, s') ↔
      ∃ c : Chunk, wav.drop cursor = c.encode ++ wav.drop next ∧
        next = cursor + c.encode.length ∧ (c.id = fmtId → 16 ≤ c.data.length) ∧
        s' = s.record (cursor + 8) c := by
  constructor
  · intro h
    obtain ⟨hsize, hpad, hnext⟩ := readChunk_ok h
    have hfield : Riff.ofLe (((wav.drop cursor).drop 4).take 4) = readLe32 wav (cursor + 4) := by
      rw [List.drop_drop, readLe32_eq_ofLe (by omega)]
    have hlength : (wav.drop cursor).length = wav.length - cursor := List.length_drop
    obtain ⟨c, hc, hdrop⟩ := Riff.exists_chunk (by omega) hfield (by omega)
    rw [List.drop_drop, ← Nat.add_assoc, ← Nat.add_assoc, ← hnext] at hdrop
    rw [readChunk_of_chunk hdrop] at h
    split at h
    · cases h
    · next hfmt =>
      obtain ⟨rfl, rfl⟩ := Prod.mk.inj (Except.ok.inj h)
      exact ⟨c, hdrop, rfl, fun hid => Nat.not_lt.mp fun hlt => hfmt ⟨hid, hlt⟩, rfl⟩
  · rintro ⟨c, hdrop, rfl, hfmt, rfl⟩
    rw [readChunk_of_chunk hdrop, if_neg]
    rintro ⟨hid, hlt⟩
    exact absurd (hfmt hid) (by omega)

/-- What the walk keeps of some chunks, the first of them at the cursor. -/
def recordAll (cursor : Nat) (s : WavChunks) : List Chunk → WavChunks
  | [] => s
  | c :: cs => recordAll (cursor + c.encode.length) (s.record (cursor + 8) c) cs

/-- Every `fmt ` chunk has at least 16 bytes. -/
def FmtLong (chunks : List Chunk) : Prop := ∀ c ∈ chunks, c.id = fmtId → 16 ≤ c.data.length

/-- Where the walk ends well there are chunks up to the last few bytes. -/
theorem exists_chunks_of_walkChunks {wav : Bytes} {cursor : Nat} {s s' : WavChunks}
    (hwav : 8 ≤ wav.length) (hcursor : cursor ≤ wav.length)
    (h : walkChunks wav cursor s = .ok s') :
    ∃ chunks rest, wav.drop cursor = encodeAll chunks ++ rest ∧ rest.length < 8 ∧
      FmtLong chunks ∧ s' = recordAll cursor s chunks := by
  fun_induction walkChunks wav cursor s with
  | case1 cursor s hmore error herror => cases h
  | case2 cursor s hmore next s1 hread ih =>
    obtain ⟨c, hdrop, rfl, hfmt, rfl⟩ := (readChunk_ok_iff (by omega)).mp hread
    have hfits := length_of_chunk hdrop
    have hlength := c.length_encode
    obtain ⟨chunks, rest, hchunks, hrest, hlong, heq⟩ := ih (by omega) h
    refine ⟨c :: chunks, rest, ?_, hrest, ?_, heq⟩
    · rw [hdrop, hchunks, Riff.encodeAll_cons, List.append_assoc]
    · exact List.forall_mem_cons.mpr ⟨hfmt, hlong⟩
  | case3 cursor s hend =>
    refine ⟨[], wav.drop cursor, rfl, ?_, nofun, (Except.ok.inj h).symm⟩
    rw [List.length_drop]
    omega

/-- A pass over a chunk moves the walk past it. -/
theorem walkChunks_of_readChunk {wav : Bytes} {cursor next : Nat} {s s' : WavChunks}
    (hmore : cursor ≤ wav.length - 8) (h : readChunk wav cursor s = .ok (next, s')) :
    walkChunks wav cursor s = walkChunks wav next s' := by
  rw [walkChunks, if_pos hmore]
  split
  · next error herror =>
    rw [h] at herror
    cases herror
  · next next1 s1 hread =>
    rw [h] at hread
    obtain ⟨rfl, rfl⟩ := Prod.mk.inj (Except.ok.inj hread)
    rfl

theorem walkChunks_of_chunks {wav rest : Bytes} {cursor : Nat} {s : WavChunks}
    {chunks : List Chunk} (hcursor : cursor ≤ wav.length) (hwav : 8 ≤ wav.length)
    (hdrop : wav.drop cursor = encodeAll chunks ++ rest) (hrest : rest.length < 8)
    (hlong : FmtLong chunks) : walkChunks wav cursor s = .ok (recordAll cursor s chunks) := by
  induction chunks generalizing cursor s with
  | nil =>
    have hlength := congrArg List.length hdrop
    rw [List.length_drop, Riff.encodeAll_nil, List.nil_append] at hlength
    rw [walkChunks, if_neg (by omega), recordAll]
  | cons c chunks ih =>
    obtain ⟨hfmt, hlong⟩ := List.forall_mem_cons.mp hlong
    rw [Riff.encodeAll_cons, List.append_assoc] at hdrop
    have hfits := length_of_chunk hdrop
    have hnext : wav.drop (cursor + c.encode.length) = encodeAll chunks ++ rest := by
      rw [← List.drop_drop, hdrop, List.drop_left]
    have hread : readChunk wav cursor s =
        .ok (cursor + c.encode.length, s.record (cursor + 8) c) := by
      rw [readChunk_ok_iff (by omega)]
      exact ⟨c, by rw [hdrop, hnext], rfl, hfmt, rfl⟩
    have hlength := c.length_encode
    rw [walkChunks_of_readChunk (by omega) hread, recordAll]
    exact ih (by omega) hnext hlong

/-- The walk ends well where there are chunks up to the last few bytes, and only there. -/
theorem walkChunks_ok_iff {wav : Bytes} {cursor : Nat} {s s' : WavChunks}
    (hwav : 8 ≤ wav.length) (hcursor : cursor ≤ wav.length) :
    walkChunks wav cursor s = .ok s' ↔
      ∃ chunks rest, wav.drop cursor = encodeAll chunks ++ rest ∧ rest.length < 8 ∧
        FmtLong chunks ∧ s' = recordAll cursor s chunks := by
  constructor
  · exact exists_chunks_of_walkChunks hwav hcursor
  · rintro ⟨chunks, rest, hdrop, hrest, hlong, rfl⟩
    exact walkChunks_of_chunks hcursor hwav hdrop hrest hlong

/-! ## 6. The sounds that can be scaled -/

/-- What the walk keeps, told from the last chunk of either kind. -/
structure WavChunks.Describes (s : WavChunks) (fmt data : Option Chunk) : Prop where
  have_fmt : s.have_fmt = fmt.isSome
  have_data : s.have_data = data.isSome
  format : ∀ f, fmt = some f → s.audio_format = readLe16 f.data 0
  bits : ∀ f, fmt = some f → s.bits_per_sample = readLe16 f.data 14
  size : ∀ d, data = some d → s.data_size = d.data.length

theorem WavChunks.Describes.record {s : WavChunks} {fmt data : Option Chunk}
    (h : s.Describes fmt data) (chunk_data : Nat) (c : Chunk) :
    (s.record chunk_data c).Describes (if c.id = fmtId then some c else fmt)
      (if c.id = dataId then some c else data) := by
  rw [WavChunks.record]
  by_cases hfmt : c.id = fmtId
  · have hdata : c.id ≠ dataId := by
      rw [hfmt]
      decide
    rw [if_pos hfmt, if_pos hfmt, if_neg hdata]
    exact ⟨rfl, h.have_data, by rintro _ ⟨⟩; rfl, by rintro _ ⟨⟩; rfl, h.size⟩
  · rw [if_neg hfmt, if_neg hfmt]
    by_cases hdata : c.id = dataId
    · rw [if_pos hdata, if_pos hdata]
      exact ⟨h.have_fmt, rfl, h.format, h.bits, by rintro _ ⟨⟩; rfl⟩
    · rw [if_neg hdata, if_neg hdata]
      exact h

theorem WavChunks.Describes.recordAll {s : WavChunks} {fmt data : Option Chunk}
    (h : s.Describes fmt data) (cursor : Nat) (chunks : List Chunk) :
    (recordAll cursor s chunks).Describes ((lastOf fmtId chunks).or fmt)
      ((lastOf dataId chunks).or data) := by
  induction chunks generalizing cursor s fmt data with
  | nil => exact h
  | cons c chunks ih =>
    rw [Riff.lastOf_cons_or, Riff.lastOf_cons_or]
    exact ih (h.record (cursor + 8) c) (cursor + c.encode.length)

/-- The chunks from the end of the header on, with fewer than eight bytes left over. -/
def HasChunks (wav : Bytes) (chunks : List Chunk) : Prop :=
  ∃ size rest : Bytes, size.length = 4 ∧ rest.length < 8 ∧
    wav = bytes "RIFF" ++ size ++ bytes "WAVE" ++ encodeAll chunks ++ rest

/-- Chunks of 8- or 16-bit PCM; the last `fmt ` and the last `data` chunk count. -/
structure PcmChunks (chunks : List Chunk) : Prop where
  fmtLong : FmtLong chunks
  last : ∃ fmt data, lastOf fmtId chunks = some fmt ∧ lastOf dataId chunks = some data ∧
    readLe16 fmt.data 0 = 1 ∧
    (readLe16 fmt.data 14 = 16 ∧ data.data.length % 2 = 0 ∨ readLe16 fmt.data 14 = 8)

def Scalable (wav : Bytes) : Prop := ∃ chunks, HasChunks wav chunks ∧ PcmChunks chunks

theorem scaleData_isOk_iff (wav : Bytes) (effective_volume : Int) {s : WavChunks}
    {fmt data : Option Chunk} (h : s.Describes fmt data) :
    (∃ scaled, scaleData wav effective_volume s = .ok scaled) ↔
      ∃ f d, fmt = some f ∧ data = some d ∧ readLe16 f.data 0 = 1 ∧
        (readLe16 f.data 14 = 16 ∧ d.data.length % 2 = 0 ∨ readLe16 f.data 14 = 8) := by
  rw [scaleData, h.have_fmt, h.have_data]
  cases fmt with
  | none => simp
  | some f =>
    cases data with
    | none => simp
    | some d =>
      rw [h.format f rfl, h.bits f rfl, h.size d rfl]
      simp only [Option.isSome_some, Bool.not_true, Bool.or_false, Bool.false_eq_true, if_false,
        Option.some.injEq, exists_and_left, exists_eq_left', ne_eq]
      by_cases hformat : readLe16 f.data 0 = 1
      · by_cases h16 : readLe16 f.data 14 = 16
        · by_cases heven : d.data.length % 2 = 0
          · simp [hformat, h16, heven]
          · simp [hformat, h16, heven]
        · by_cases h8 : readLe16 f.data 14 = 8
          · simp [hformat, h8]
          · simp [hformat, h16, h8]
      · simp [hformat]

theorem length_of_pcmChunks {chunks : List Chunk} (h : PcmChunks chunks) :
    32 ≤ (encodeAll chunks).length := by
  obtain ⟨fmt, data, hfmt, hdata, -, -⟩ := h.last
  obtain ⟨hfmtMem, hfmtId⟩ := Riff.lastOf_spec hfmt
  obtain ⟨hdataMem, hdataId⟩ := Riff.lastOf_spec hdata
  have hne : fmt.id ≠ data.id := by
    rw [hfmtId, hdataId]
    decide
  have hboth := Riff.length_encode_add_le hfmtMem hdataMem hne
  have hlong := h.fmtLong fmt hfmtMem hfmtId
  rw [fmt.length_encode, data.length_encode] at hboth
  omega

/-- The header of a RIFF file, and what follows it. -/
theorem riff_header_iff {wav tail : Bytes} (h : 12 ≤ wav.length) :
    wav.take 4 = bytes "RIFF" ∧ (wav.drop 8).take 4 = bytes "WAVE" ∧ wav.drop 12 = tail ↔
      ∃ size : Bytes, size.length = 4 ∧ wav = bytes "RIFF" ++ size ++ bytes "WAVE" ++ tail := by
  constructor
  · rintro ⟨hriff, hwave, rfl⟩
    refine ⟨(wav.drop 4).take 4, ?_, ?_⟩
    · rw [List.length_take, List.length_drop]
      omega
    · calc wav = wav.take 4 ++ wav.drop 4 := (List.take_append_drop ..).symm
        _ = wav.take 4 ++ ((wav.drop 4).take 4 ++ ((wav.drop 8).take 4 ++ wav.drop 12)) := by
          rw [Riff.take_append_drop_add wav 8 4, Riff.take_append_drop_add wav 4 4]
        _ = _ := by rw [hriff, hwave, List.append_assoc, List.append_assoc]
  · rintro ⟨size, hsize, rfl⟩
    match size, hsize with
    | [a, b, c, d], _ => exact ⟨rfl, rfl, rfl⟩

theorem scalePcmWavInMemory_isOk_iff (wav : Bytes) (effective_volume : Int) :
    (∃ scaled, scalePcmWavInMemory wav effective_volume = .ok scaled) ↔ Scalable wav := by
  have hstart : WavChunks.Describes {} none none := ⟨rfl, rfl, nofun, nofun, nofun⟩
  constructor
  · rintro ⟨scaled, h⟩
    rw [scalePcmWavInMemory] at h
    split at h
    · cases h
    · next hlength =>
      split at h
      · cases h
      · next hheader =>
        obtain ⟨hriff, hwave⟩ := not_or.mp hheader
        split at h
        · cases h
        · next s hwalk =>
          obtain ⟨chunks, rest, hdrop, hrest, hlong, rfl⟩ :=
            (walkChunks_ok_iff (by omega) (by omega)).mp hwalk
          obtain ⟨size, hsize, heq⟩ := (riff_header_iff (by omega)).mp
            ⟨not_not.mp hriff, not_not.mp hwave, hdrop⟩
          refine ⟨chunks, ⟨size, rest, hsize, hrest, ?_⟩, hlong, ?_⟩
          · rw [heq, List.append_assoc _ _ rest]
          · have hlast := (scaleData_isOk_iff wav effective_volume
              (hstart.recordAll 12 chunks)).mp ⟨scaled, h⟩
            simpa only [Option.or_none, exists_and_left] using hlast
  · rintro ⟨chunks, ⟨size, rest, hsize, hrest, heq⟩, hpcm⟩
    have hchunks := length_of_pcmChunks hpcm
    have hlength : 44 ≤ wav.length := by
      have hriff : (bytes "RIFF").length = 4 := rfl
      have hwave : (bytes "WAVE").length = 4 := rfl
      simp only [heq, List.length_append]
      omega
    rw [List.append_assoc _ _ rest] at heq
    obtain ⟨hriff, hwave, hdrop⟩ := (riff_header_iff (by omega)).mpr ⟨size, hsize, heq⟩
    have hwalk : walkChunks wav 12 {} = .ok (recordAll 12 {} chunks) := by
      apply (walkChunks_ok_iff (by omega) (by omega)).mpr
      exact ⟨chunks, rest, hdrop, hrest, hpcm.fmtLong, rfl⟩
    rw [scalePcmWavInMemory, if_neg (by omega), if_neg (by simp [hriff, hwave]), hwalk]
    apply (scaleData_isOk_iff wav effective_volume (hstart.recordAll 12 chunks)).mpr
    simpa only [Option.or_none] using hpcm.last

/-! ## 7. The sounds that are stored -/

/-- Where no mixer control takes the volume, a sound that can be scaled is played scaled; any other
is played as it is, with the reason. -/
theorem play_cases (sound : Bytes) {volume_percent : Int} (h : volume_percent < 100) :
    (Scalable sound ∧ ∃ scaled,
      scalePcmWavInMemory sound (clamp volume_percent 0 100) = .ok scaled ∧
      play sound volume_percent {} = { played := scaled }) ∨
    (¬ Scalable sound ∧ ∃ error,
      scalePcmWavInMemory sound (clamp volume_percent 0 100) = .error error ∧
      play sound volume_percent {} = { played := sound, unavailable := some error }) := by
  have hclamp : clamp volume_percent 0 100 < 100 := by
    rw [clamp]
    split
    · omega
    · rwa [if_neg (by omega)]
  have hiff := scalePcmWavInMemory_isOk_iff sound (clamp volume_percent 0 100)
  cases hscale : scalePcmWavInMemory sound (clamp volume_percent 0 100) with
  | ok scaled =>
    refine Or.inl ⟨hiff.mp ⟨scaled, hscale⟩, scaled, rfl, ?_⟩
    simp [play, hclamp, createSoftwareScaledWav, hscale]
  | error error =>
    refine Or.inr ⟨?_, error, rfl, ?_⟩
    · intro hscalable
      obtain ⟨scaled, hok⟩ := hiff.mpr hscalable
      rw [hscale] at hok
      cases hok
    · simp [play, hclamp, createSoftwareScaledWav, hscale]

open Webd (HttpRequest RingSounds SoundsIo handleUploadRingSound uploadName)

/-- A sound with one channel of PCM. -/
def pcmSound (bits_per_sample : Byte) (samples : Bytes) : Bytes :=
  bytes "RIFF" ++ Riff.le32 (36 + samples.length) ++ bytes "WAVE" ++ fmtId ++ Riff.le32 16 ++
    [1, 0, 1, 0, 0x40, 0x1f, 0, 0, 0x40, 0x1f, 0, 0, 1, 0, bits_per_sample, 0] ++
    dataId ++ Riff.le32 samples.length ++ samples

end VirtualChime.AplayAudioPlayer
