import VirtualChime.Library.Checked
import VirtualChime.WavScaling

/-!
# The scaling on any bytes

`ScalePcmWavInMemory` in checked operations, with words of 32 bits for `size_t`.  The walk
keeps its cursor inside the vector, and from that no index and no size goes astray.
-/

namespace VirtualChime.AplayAudioPlayer.Machine

open Checked (Fault add sub get set slice)
open Riff (Chunk encodeAll lastOf)

/-! ## 1. The source -/

def readLe16 (data : Bytes) (offset : ℕ) : Except Fault ℕ := do
  let low ← get data offset
  let high ← get data (← add 32 offset 1)
  return low.toNat ||| high.toNat <<< 8

def readLe32 (data : Bytes) (offset : ℕ) : Except Fault ℕ := do
  let b0 ← get data offset
  let b1 ← get data (← add 32 offset 1)
  let b2 ← get data (← add 32 offset 2)
  let b3 ← get data (← add 32 offset 3)
  return b0.toNat ||| b1.toNat <<< 8 ||| b2.toNat <<< 16 ||| b3.toNat <<< 24

def writeLe16 (data : Bytes) (offset value : ℕ) : Except Fault Bytes := do
  let data ← set data offset (UInt8.ofNat (value &&& 255))
  set data (← add 32 offset 1) (UInt8.ofNat (value >>> 8 &&& 255))

/-- What one pass of the walk keeps of a chunk, or the text of the error. -/
def note (wav_bytes chunk_id : Bytes) (chunk_data chunk_size : ℕ) (s : WavChunks) :
    Except Fault (Except Bytes WavChunks) := do
  if chunk_id = fmtId then
    if chunk_size < 16 then return .error (bytes "invalid fmt chunk")
    let audio_format ← readLe16 wav_bytes (← add 32 chunk_data 0)
    let bits_per_sample ← readLe16 wav_bytes (← add 32 chunk_data 14)
    return .ok { s with
      audio_format := audio_format, bits_per_sample := bits_per_sample, have_fmt := true }
  else if chunk_id = dataId then
    return .ok { s with data_offset := chunk_data, data_size := chunk_size, have_data := true }
  else return .ok s

/-- One pass of the walk: the next cursor, or the text of the error. -/
def readChunk (wav_bytes : Bytes) (chunk_header : ℕ) (s : WavChunks) :
    Except Fault (Except Bytes (ℕ × WavChunks)) := do
  let chunk_size ← readLe32 wav_bytes (← add 32 chunk_header 4)
  let chunk_data ← add 32 chunk_header 8
  if chunk_size > (← sub wav_bytes.length chunk_data) then
    return .error (bytes "corrupt wav chunk size")
  let chunk_end ← add 32 chunk_data chunk_size
  let chunk_id ← slice wav_bytes chunk_header 4
  match ← note wav_bytes chunk_id chunk_data chunk_size s with
  | .error error => return .error error
  | .ok s =>
      let padding := if chunk_size % 2 = 1 then 1 else 0
      if padding > (← sub wav_bytes.length chunk_end) then
        return .error (bytes "corrupt wav chunk padding")
      return .ok (← add 32 chunk_end padding, s)

def walkChunks (wav_bytes : Bytes) : ℕ → ℕ → WavChunks → Except Fault (Except Bytes WavChunks)
  | 0, _, _ => .error .fuel
  | fuel + 1, cursor, s => do
      if cursor ≤ (← sub wav_bytes.length 8) then
        match ← readChunk wav_bytes cursor s with
        | .error error => return .error error
        | .ok (next, s) => walkChunks wav_bytes fuel next s
      else return .ok s

/-- The loop over the samples of 16 bits, with any way of scaling one of them. -/
def scaleSamples16 (scale : Int → Int) (data_offset data_size : ℕ) :
    ℕ → ℕ → Bytes → Except Fault Bytes
  | 0, _, _ => .error .fuel
  | fuel + 1, i, wav_bytes => do
      if (← add 32 i 1) < data_size then
        let sample_offset ← add 32 data_offset i
        let low ← get wav_bytes sample_offset
        let high ← get wav_bytes (← add 32 sample_offset 1)
        let clamped := clamp (scale (read16 low high)) (-32768) 32767
        let wav_bytes ← writeLe16 wav_bytes sample_offset (clamped % 2 ^ 16).toNat
        scaleSamples16 scale data_offset data_size fuel (← add 32 i 2) wav_bytes
      else return wav_bytes

/-- The loop over the samples of 8 bits. -/
def scaleSamples8 (scale : Int → Int) (data_offset data_size : ℕ) :
    ℕ → ℕ → Bytes → Except Fault Bytes
  | 0, _, _ => .error .fuel
  | fuel + 1, i, wav_bytes => do
      if i < data_size then
        let sample_offset ← add 32 data_offset i
        let centered := ((← get wav_bytes sample_offset).toNat : Int) - 128
        let clamped := clamp (scale centered) (-128) 127
        let wav_bytes ← set wav_bytes sample_offset (UInt8.ofNat (clamped + 128).toNat)
        scaleSamples8 scale data_offset data_size fuel (← add 32 i 1) wav_bytes
      else return wav_bytes

/-- The bytes after a call, and the text of the error where it returns false. -/
structure Outcome where
  wav_bytes : Bytes
  error : Option Bytes := none
deriving DecidableEq, Repr

/-- `ScalePcmWavInMemory` from the end of the walk on. -/
def scaleData (scale : Int → Int) (fuel : ℕ) (wav_bytes : Bytes) (s : WavChunks) :
    Except Fault Outcome := do
  if !s.have_fmt || !s.have_data then return ⟨wav_bytes, some (bytes "missing fmt or data chunk")⟩
  if s.audio_format ≠ 1 then
    return ⟨wav_bytes, some (bytes "unsupported wav encoding (only PCM supported)")⟩
  if s.bits_per_sample = 16 then
    if s.data_size % 2 ≠ 0 then
      return ⟨wav_bytes, some (bytes "invalid 16-bit PCM data size")⟩
    return ⟨← scaleSamples16 scale s.data_offset s.data_size fuel 0 wav_bytes, none⟩
  if s.bits_per_sample = 8 then
    return ⟨← scaleSamples8 scale s.data_offset s.data_size fuel 0 wav_bytes, none⟩
  return ⟨wav_bytes, some (bytes "unsupported bits_per_sample=" ++ natDecimal s.bits_per_sample)⟩

def scalePcmWavInMemory (scale : Int → Int) (fuel : ℕ) (wav_bytes : Bytes) :
    Except Fault Outcome := do
  if wav_bytes.length < 44 then return ⟨wav_bytes, some (bytes "wav too small")⟩
  let riff ← slice wav_bytes 0 4
  let wave ← slice wav_bytes 8 4
  if riff ≠ bytes "RIFF" ∨ wave ≠ bytes "WAVE" then
    return ⟨wav_bytes, some (bytes "not a RIFF/WAVE file")⟩
  match ← walkChunks wav_bytes fuel 12 {} with
  | .error error => return ⟨wav_bytes, some error⟩
  | .ok s => scaleData scale fuel wav_bytes s

/-! ## 2. Bytes -/

section Bytes

variable {data : Bytes} {offset : ℕ} (hsmall : data.length < 2 ^ 32)

include hsmall

theorem readLe16_ok (h : offset + 1 < data.length) :
    readLe16 data offset = .ok (AplayAudioPlayer.readLe16 data offset) := by
  have hlow : offset < data.length := by omega
  have hnext : offset + 1 < 2 ^ 32 := by omega
  simp [readLe16, Checked.get_ok hlow 0, Checked.add_ok hnext, Checked.get_ok h 0,
    AplayAudioPlayer.readLe16]

theorem readLe32_ok (h : offset + 3 < data.length) :
    readLe32 data offset = .ok (AplayAudioPlayer.readLe32 data offset) := by
  have h0 : offset < data.length := by omega
  have h1 : offset + 1 < data.length := by omega
  have h2 : offset + 2 < data.length := by omega
  have hnext : offset + 1 < 2 ^ 32 ∧ offset + 2 < 2 ^ 32 ∧ offset + 3 < 2 ^ 32 := by omega
  simp [readLe32, Checked.get_ok h0 0, Checked.get_ok h1 0, Checked.get_ok h2 0,
    Checked.get_ok h 0, Checked.add_ok hnext.1, Checked.add_ok hnext.2.1,
    Checked.add_ok hnext.2.2, AplayAudioPlayer.readLe32]

theorem writeLe16_ok (h : offset + 1 < data.length) (value : ℕ) :
    writeLe16 data offset value = .ok (AplayAudioPlayer.writeLe16 data offset value) := by
  have hlow : offset < data.length := by omega
  have hnext : offset + 1 < 2 ^ 32 := by omega
  have hhigh : offset + 1 < (data.set offset (UInt8.ofNat (value &&& 255))).length := by
    rwa [List.length_set]
  simp only [writeLe16, Checked.set_ok hlow, Checked.add_ok hnext, Checked.ok_bind,
    Checked.set_ok hhigh, AplayAudioPlayer.writeLe16]

end Bytes

/-! ## 3. The walk -/

section Walk

variable {wav_bytes : Bytes} (hsmall : wav_bytes.length < 2 ^ 32)

include hsmall

theorem note_eq {chunk_id : Bytes} {chunk_data chunk_size : ℕ}
    (h : chunk_data + chunk_size ≤ wav_bytes.length) (s : WavChunks) :
    note wav_bytes chunk_id chunk_data chunk_size s =
      .ok (if chunk_id = fmtId ∧ chunk_size < 16 then .error (bytes "invalid fmt chunk")
        else .ok (s.note wav_bytes chunk_id chunk_data chunk_size)) := by
  rw [note, WavChunks.note]
  by_cases hfmt : chunk_id = fmtId
  · by_cases hshort : chunk_size < 16
    · simp [hfmt, hshort]
    · have hfields : chunk_data + 0 < 2 ^ 32 ∧ chunk_data + 14 < 2 ^ 32 := by omega
      have hstart : chunk_data + 0 + 1 < wav_bytes.length := by omega
      have hend : chunk_data + 14 + 1 < wav_bytes.length := by omega
      have hformat := readLe16_ok hsmall hstart
      have hbits := readLe16_ok hsmall hend
      simp [hfmt, hshort, Checked.add_ok hfields.1, Checked.add_ok hfields.2, hformat, hbits]
  · have hnot : ¬ (chunk_id = fmtId ∧ chunk_size < 16) := by
      intro h
      exact hfmt h.1
    rw [if_neg hfmt, if_neg hfmt, if_neg hnot]
    split <;> rfl

/-- A pass inside the vector is the pass of the model. -/
theorem readChunk_eq {chunk_header : ℕ} (h : chunk_header + 8 ≤ wav_bytes.length)
    (s : WavChunks) :
    readChunk wav_bytes chunk_header s =
      .ok (AplayAudioPlayer.readChunk wav_bytes chunk_header s) := by
  have hbytes : chunk_header + 4 + 3 < wav_bytes.length := by omega
  have hsize := readLe32_ok hsmall hbytes
  have hfield : chunk_header + 4 < 2 ^ 32 ∧ chunk_header + 8 < 2 ^ 32 := by omega
  have hid : chunk_header + 4 ≤ wav_bytes.length := by omega
  rw [readChunk, AplayAudioPlayer.readChunk]
  simp only [Checked.add_ok hfield.1, Checked.add_ok hfield.2, hsize, Checked.sub_ok h,
    Checked.ok_bind, Checked.pure_eq]
  generalize AplayAudioPlayer.readLe32 wav_bytes (chunk_header + 4) = chunk_size
  by_cases hfits : chunk_size > wav_bytes.length - (chunk_header + 8)
  · rw [if_pos hfits, if_pos hfits]
  have hend : chunk_header + 8 + chunk_size < 2 ^ 32 := by omega
  have hendInside : chunk_header + 8 + chunk_size ≤ wav_bytes.length := by omega
  rw [if_neg hfits, if_neg hfits]
  simp only [Checked.add_ok hend, Checked.slice_ok hid, Checked.ok_bind]
  generalize (wav_bytes.drop chunk_header).take 4 = chunk_id
  simp only [note_eq hsmall hendInside, Checked.ok_bind]
  by_cases hfmt : chunk_id = fmtId ∧ chunk_size < 16
  · simp only [if_pos hfmt]
  simp only [if_neg hfmt, Checked.sub_ok hendInside, Checked.ok_bind]
  split
  · next hodd =>
    by_cases hpad : 1 > wav_bytes.length - (chunk_header + 8 + chunk_size)
    · rw [if_pos hpad, if_pos hpad]
    · have hnext : chunk_header + 8 + chunk_size + 1 < 2 ^ 32 := by omega
      rw [if_neg hpad, if_neg hpad, Checked.add_ok hnext]
      rfl
  · have hnext : chunk_header + 8 + chunk_size + 0 < 2 ^ 32 := by omega
    rw [if_neg (Nat.not_lt_zero _), if_neg (Nat.not_lt_zero _), Checked.add_ok hnext]
    rfl

/-- The walk keeps its cursor inside the vector, so it ends, as the walk of the model does. -/
theorem walkChunks_eq (hlong : 8 ≤ wav_bytes.length) {fuel cursor : ℕ} (s : WavChunks)
    (hcursor : cursor ≤ wav_bytes.length) (hfuel : wav_bytes.length < cursor + fuel) :
    walkChunks wav_bytes fuel cursor s =
      .ok (AplayAudioPlayer.walkChunks wav_bytes cursor s) := by
  induction fuel generalizing cursor s with
  | zero => omega
  | succ fuel ih =>
    rw [walkChunks, AplayAudioPlayer.walkChunks, Checked.sub_ok hlong, Checked.ok_bind]
    by_cases hmore : cursor ≤ wav_bytes.length - 8
    · rw [if_pos hmore, if_pos hmore, readChunk_eq hsmall (by omega), Checked.ok_bind]
      split
      · next error herror =>
        rw [herror]
        rfl
      · next next s' hread =>
        obtain ⟨hsize, hpad, hnext⟩ := readChunk_ok hread
        rw [hread]
        exact ih s' (by omega) (by omega)
    · rw [if_neg hmore, if_neg hmore]
      rfl

end Walk

/-! ## 4. The samples -/

section Samples

variable (scale : Int → Int) {data_offset : ℕ}

/-- The loop over the samples of 16 bits stays inside the data. -/
theorem scaleSamples16_eq {fuel i : ℕ} {data before after : Bytes} (hoffset : 0 < data_offset)
    (hbefore : before.length = data_offset + i)
    (hsmall : (before ++ (data ++ after)).length < 2 ^ 32) (hfuel : data.length < fuel) :
    scaleSamples16 scale data_offset (i + data.length) fuel i (before ++ (data ++ after)) =
      .ok (before ++ (scaled16 scale data ++ after)) := by
  obtain ⟨fuel, rfl⟩ := Nat.exists_eq_succ_of_ne_zero (Nat.ne_zero_of_lt hfuel)
  fun_induction scaled16 scale data generalizing before i fuel with
  | case1 low high data ih =>
    have hlength := hsmall
    simp only [List.length_append, List.length_cons] at hlength hfuel
    have hsize : i + (low :: high :: data).length = i + 2 + data.length := by
      simp only [List.length_cons]
      omega
    have hwords : i + 1 < 2 ^ 32 ∧ data_offset + i < 2 ^ 32 ∧ data_offset + i + 1 < 2 ^ 32 ∧
        i + 2 < 2 ^ 32 := by
      omega
    have hmore : i + 1 < i + 2 + data.length := by omega
    have hlow : (before ++ (low :: high :: data ++ after))[data_offset + i]? = some low := by
      rw [← hbefore]
      simp
    have hhigh : (before ++ (low :: high :: data ++ after))[data_offset + i + 1]? = some high := by
      rw [← hbefore]
      simp
    obtain ⟨fuel, rfl⟩ := Nat.exists_eq_succ_of_ne_zero (n := fuel) (by omega)
    rw [scaleSamples16]
    simp only [hsize, Checked.add_ok hwords.1, Checked.add_ok hwords.2.1,
      Checked.add_ok hwords.2.2.1, Checked.add_ok hwords.2.2.2, Checked.get_of_some hlow,
      Checked.get_of_some hhigh, Checked.ok_bind, if_pos hmore]
    generalize clamp (scale (read16 low high)) (-32768) 32767 = clamped
    have hinside : data_offset + i + 1 < (before ++ (low :: high :: data ++ after)).length :=
      (List.getElem?_eq_some_iff.mp hhigh).1
    have hwrite : AplayAudioPlayer.writeLe16 (before ++ (low :: high :: data ++ after))
        (data_offset + i) (clamped % 2 ^ 16).toNat = before ++ put16 clamped ++ (data ++ after) := by
      rw [← hbefore, List.cons_append, List.cons_append, writeLe16_append]
    have hnext : (before ++ put16 clamped).length = data_offset + (i + 2) := by
      rw [List.length_append, hbefore, length_put16, Nat.add_assoc]
    have hrest : (before ++ put16 clamped ++ (data ++ after)).length < 2 ^ 32 := by
      simp only [List.length_append, length_put16]
      omega
    rw [writeLe16_ok hsmall hinside, Checked.ok_bind, hwrite, ih hnext hrest fuel (by omega)]
    simp only [List.append_assoc]
  | case2 data hshort =>
    have hlength := hsmall
    simp only [List.length_append] at hlength
    have hfew := length_lt_two hshort
    have hword : i + 1 < 2 ^ 32 := by omega
    have hend : ¬ i + 1 < i + data.length := by omega
    rw [scaleSamples16, Checked.add_ok hword, Checked.ok_bind, if_neg hend]
    rfl

/-- The loop over the samples of 8 bits stays inside the data. -/
theorem scaleSamples8_eq {fuel i : ℕ} {data before after : Bytes}
    (hbefore : before.length = data_offset + i)
    (hsmall : (before ++ (data ++ after)).length < 2 ^ 32) (hfuel : data.length < fuel) :
    scaleSamples8 scale data_offset (i + data.length) fuel i (before ++ (data ++ after)) =
      .ok (before ++ (scaled8 scale data ++ after)) := by
  induction data generalizing before i fuel with
  | nil =>
    obtain ⟨fuel, rfl⟩ := Nat.exists_eq_succ_of_ne_zero (Nat.ne_zero_of_lt hfuel)
    have hend : ¬ i < i + ([] : Bytes).length := Nat.lt_irrefl i
    rw [scaleSamples8, if_neg hend]
    rfl
  | cons b data ih =>
    obtain ⟨fuel, rfl⟩ := Nat.exists_eq_succ_of_ne_zero (Nat.ne_zero_of_lt hfuel)
    have hlength := hsmall
    simp only [List.length_append, List.length_cons] at hlength hfuel
    have hsize : i + (b :: data).length = i + 1 + data.length := by
      simp only [List.length_cons]
      omega
    have hwords : data_offset + i < 2 ^ 32 ∧ i + 1 < 2 ^ 32 := by omega
    have hmore : i < i + 1 + data.length := by omega
    have hget : (before ++ (b :: data ++ after))[data_offset + i]? = some b := by
      rw [← hbefore]
      simp
    have hinside := (List.getElem?_eq_some_iff.mp hget).1
    rw [scaleSamples8]
    simp only [hsize, Checked.add_ok hwords.1, Checked.add_ok hwords.2, Checked.get_of_some hget,
      Checked.set_ok hinside, Checked.ok_bind, if_pos hmore]
    generalize hbyte : UInt8.ofNat (clamp (scale (b.toNat - 128)) (-128) 127 + 128).toNat = byte
    have hset : (before ++ (b :: data ++ after)).set (data_offset + i) byte =
        before ++ [byte] ++ (data ++ after) := by
      rw [← hbefore, List.cons_append, set_append_cons, List.append_assoc]
      rfl
    have hnext : (before ++ [byte]).length = data_offset + (i + 1) := by
      rw [List.length_append, hbefore, List.length_singleton, Nat.add_assoc]
    have hrest : (before ++ [byte] ++ (data ++ after)).length < 2 ^ 32 := by
      simp only [List.length_append, List.length_singleton]
      omega
    rw [hset, ih hnext hrest (by omega)]
    simp only [scaled8, List.map_cons, hbyte, List.append_assoc, List.cons_append,
      List.nil_append]

end Samples

/-! ## 5. The call -/

/-- What the model says of a call. -/
def Outcome.result (o : Outcome) : Except Bytes Bytes :=
  match o.error with
  | none => .ok o.wav_bytes
  | some error => .error error

/-- What a call on `wav_bytes` may have done: nothing if it returns false, and else only the bytes
of one `data` chunk have changed, a chunk of the walk that starts after the 12 bytes of the header. -/
def Outcome.Confined (wav_bytes : Bytes) (o : Outcome) : Prop :=
  match o.error with
  | some _ => o.wav_bytes = wav_bytes
  | none => ∃ (before : List Chunk) (chunk : Chunk) (tail scaled : Bytes), chunk.id = dataId ∧
      scaled.length = chunk.data.length ∧
      wav_bytes = wav_bytes.take 12 ++ encodeAll before ++ chunk.encode ++ tail ∧
      o.wav_bytes = wav_bytes.take 12 ++ encodeAll before ++
        (chunk.id ++ Riff.le32 chunk.data.length ++ scaled ++ chunk.pad) ++ tail

/-- One sample times the gain, with any `lround`: the library promises nothing where the result
does not fit in a `long`, which has 32 bits here. -/
def scaleWith (lround : ℚ → Int) (effective_volume sample : Int) : Int :=
  lround (toDouble (sample * gainOf effective_volume))

section Call

variable {wav_bytes : Bytes}

/-- The `data` chunk that a walk over chunks has kept. -/
theorem exists_data {rest : Bytes} {cursor : ℕ} {chunks : List Chunk}
    (hdrop : wav_bytes.drop cursor = encodeAll chunks ++ rest) (hcursor : cursor ≤ wav_bytes.length)
    (hdata : (recordAll cursor {} chunks).have_data = true) :
    ∃ (before : List Chunk) (chunk : Chunk) (tail : Bytes), chunk.id = dataId ∧
      wav_bytes = wav_bytes.take cursor ++ encodeAll before ++ chunk.encode ++ tail ∧
      (recordAll cursor {} chunks).data_offset =
        (wav_bytes.take cursor ++ encodeAll before).length + 8 ∧
      (recordAll cursor {} chunks).data_size = chunk.data.length := by
  have hstart : WavChunks.Describes {} none none := ⟨rfl, rfl, nofun, nofun, nofun⟩
  have hdescribes := hstart.recordAll cursor chunks
  rw [Option.or_none, Option.or_none] at hdescribes
  rcases recordAll_data_offset cursor {} chunks with
    ⟨hnone, -⟩ | ⟨before, chunk, after, hsome, rfl, hoffset⟩
  · rw [hdescribes.have_data, hnone] at hdata
    cases hdata
  · refine ⟨before, chunk, encodeAll after ++ rest, (Riff.lastOf_spec hsome).2, ?_, ?_,
      hdescribes.size chunk hsome⟩
    · rw [encodeAll_append, Riff.encodeAll_cons] at hdrop
      calc wav_bytes = wav_bytes.take cursor ++ wav_bytes.drop cursor :=
            (List.take_append_drop ..).symm
        _ = _ := by
          rw [hdrop]
          simp only [List.append_assoc]
    · rw [hoffset, List.length_append, List.length_take, Nat.min_eq_left hcursor]

/-- What follows a walk ends, is confined, and does what the model does. -/
def ScalesSafely (scale : Int → Int) (fuel : ℕ) (wav_bytes : Bytes) (s : WavChunks) : Prop :=
  ∃ outcome, scaleData scale fuel wav_bytes s = .ok outcome ∧ outcome.Confined wav_bytes ∧
    ∀ effective_volume, scale = scaleSample (gainOf effective_volume) →
      AplayAudioPlayer.scaleData wav_bytes effective_volume s = outcome.result

section Outcomes

variable {scale : Int → Int} {fuel : ℕ} {s : WavChunks}

theorem ScalesSafely.of_error (error : Bytes)
    (hmachine : scaleData scale fuel wav_bytes s = .ok ⟨wav_bytes, some error⟩)
    (hmodel : ∀ effective_volume,
      AplayAudioPlayer.scaleData wav_bytes effective_volume s = .error error) :
    ScalesSafely scale fuel wav_bytes s :=
  ⟨_, hmachine, rfl, fun effective_volume _ => hmodel effective_volume⟩

theorem ScalesSafely.of_scaled {before : List Chunk} {tail front : Bytes} {chunk : Chunk}
    (hid : chunk.id = dataId)
    (hwav : wav_bytes = wav_bytes.take 12 ++ encodeAll before ++ chunk.encode ++ tail)
    (hfront : wav_bytes.take 12 ++ encodeAll before ++ chunk.id ++ Riff.le32 chunk.data.length =
      front)
    (scaled : Bytes)
    (hlength : scaled.length = chunk.data.length)
    (hmachine : scaleData scale fuel wav_bytes s =
      .ok ⟨front ++ (scaled ++ (chunk.pad ++ tail)), none⟩)
    (hmodel : ∀ effective_volume, scale = scaleSample (gainOf effective_volume) →
      AplayAudioPlayer.scaleData wav_bytes effective_volume s =
        .ok (front ++ (scaled ++ (chunk.pad ++ tail)))) :
    ScalesSafely scale fuel wav_bytes s := by
  refine ⟨_, hmachine, ⟨before, chunk, tail, scaled, hid, hlength, hwav, ?_⟩, hmodel⟩
  rw [← hfront]
  simp only [List.append_assoc]

end Outcomes

variable (hsmall : wav_bytes.length < 2 ^ 32) {fuel : ℕ} (hfuel : wav_bytes.length < fuel)

include hsmall hfuel

/-- After a walk over chunks the samples are scaled inside the last `data` chunk. -/
theorem scalesSafely_recordAll (scale : Int → Int) {rest : Bytes} {chunks : List Chunk}
    (hdrop : wav_bytes.drop 12 = encodeAll chunks ++ rest) (hheader : 12 ≤ wav_bytes.length) :
    ScalesSafely scale fuel wav_bytes (recordAll 12 {} chunks) := by
  have hdata := exists_data hdrop hheader
  generalize recordAll 12 {} chunks = s at hdata
  by_cases hmissing : (!s.have_fmt || !s.have_data) = true
  · apply ScalesSafely.of_error (bytes "missing fmt or data chunk")
    · simp [scaleData, hmissing]
    · simp [AplayAudioPlayer.scaleData, hmissing]
  by_cases hformat : s.audio_format ≠ 1
  · apply ScalesSafely.of_error (bytes "unsupported wav encoding (only PCM supported)")
    · simp [scaleData, hmissing, hformat]
    · simp [AplayAudioPlayer.scaleData, hmissing, hformat]
  have hhave : s.have_data = true := by
    simp at hmissing
    exact hmissing.2
  obtain ⟨before, chunk, tail, hid, hwav, hoffset, hsize⟩ := hdata hhave
  -- the bytes before the samples
  generalize hfront :
    wav_bytes.take 12 ++ encodeAll before ++ chunk.id ++ Riff.le32 chunk.data.length = front
  have hsplit : wav_bytes = front ++ (chunk.data ++ (chunk.pad ++ tail)) := by
    refine hwav.trans ?_
    rw [Chunk.encode, ← hfront]
    simp only [List.append_assoc]
  have hfrontLength : front.length = s.data_offset + 0 := by
    rw [hoffset, ← hfront]
    simp only [List.length_append, chunk.id_length, Riff.length_le32]
  have hsizeEq : s.data_size = 0 + chunk.data.length := by rw [hsize, Nat.zero_add]
  have hpositive : 0 < s.data_offset := by omega
  have hfuelData : chunk.data.length < fuel := by
    rw [hsplit] at hfuel
    simp only [List.length_append] at hfuel
    omega
  rw [not_not] at hformat
  by_cases h16 : s.bits_per_sample = 16
  · by_cases hodd : s.data_size % 2 ≠ 0
    · apply ScalesSafely.of_error (bytes "invalid 16-bit PCM data size")
      · simp [scaleData, hmissing, hformat, h16, hodd]
      · simp [AplayAudioPlayer.scaleData, hmissing, hformat, h16, hodd]
    · apply ScalesSafely.of_scaled hid hwav hfront (scaled16 scale chunk.data) (length_scaled16 ..)
      · rw [hsplit] at hsmall
        have hloop := scaleSamples16_eq scale hpositive hfrontLength hsmall hfuelData
        rw [← hsizeEq, ← hsplit] at hloop
        simp only [scaleData, hmissing, hformat, h16, hodd, hloop]
        rfl
      · rintro effective_volume rfl
        have hloop := AplayAudioPlayer.scaleSamples16_eq (gainOf effective_volume) chunk.data front
          (chunk.pad ++ tail) hfrontLength
        rw [← hsizeEq, ← hsplit] at hloop
        simp only [AplayAudioPlayer.scaleData, hmissing, hformat, h16, hodd, hloop]
        rfl
  by_cases h8 : s.bits_per_sample = 8
  · apply ScalesSafely.of_scaled hid hwav hfront (scaled8 scale chunk.data) (length_scaled8 ..)
    · rw [hsplit] at hsmall
      have hloop := scaleSamples8_eq scale hfrontLength hsmall hfuelData
      rw [← hsizeEq, ← hsplit] at hloop
      simp [scaleData, hmissing, hformat, h8, hloop]
    · rintro effective_volume rfl
      have hloop := AplayAudioPlayer.scaleSamples8_eq (gainOf effective_volume) chunk.data front
        (chunk.pad ++ tail) hfrontLength
      rw [← hsizeEq, ← hsplit] at hloop
      simp [AplayAudioPlayer.scaleData, hmissing, hformat, h8, hloop]
  · apply ScalesSafely.of_error (bytes "unsupported bits_per_sample=" ++ natDecimal s.bits_per_sample)
    · simp [scaleData, hmissing, hformat, h16, h8]
    · simp [AplayAudioPlayer.scaleData, hmissing, hformat, h16, h8]

/-- On any bytes and at any volume a call ends, with every index inside the vector and no size
computation that wraps, and has changed nothing but the bytes of one `data` chunk. -/
theorem scaling_is_safe (lround : ℚ → Int) (effective_volume : Int) :
    ∃ outcome, scalePcmWavInMemory (scaleWith lround effective_volume) fuel wav_bytes =
        .ok outcome ∧ outcome.Confined wav_bytes ∧
      (lround = AplayAudioPlayer.lround →
        AplayAudioPlayer.scalePcmWavInMemory wav_bytes effective_volume = outcome.result) := by
  generalize hscale : scaleWith lround effective_volume = scale
  have hexact : lround = AplayAudioPlayer.lround → scale = scaleSample (gainOf effective_volume) := by
    rintro rfl
    exact hscale.symm
  by_cases hshort : wav_bytes.length < 44
  · refine ⟨⟨wav_bytes, some (bytes "wav too small")⟩, ?_, rfl, ?_⟩
    · rw [scalePcmWavInMemory, if_pos hshort]
      rfl
    · intro _
      rw [AplayAudioPlayer.scalePcmWavInMemory, if_pos hshort]
      rfl
  have hriff : 0 + 4 ≤ wav_bytes.length := by omega
  have hwave : 8 + 4 ≤ wav_bytes.length := by omega
  simp only [scalePcmWavInMemory, AplayAudioPlayer.scalePcmWavInMemory, if_neg hshort,
    Checked.slice_ok hriff, Checked.slice_ok hwave, Checked.ok_bind, List.drop_zero]
  by_cases hheader : wav_bytes.take 4 ≠ bytes "RIFF" ∨ (wav_bytes.drop 8).take 4 ≠ bytes "WAVE"
  · refine ⟨⟨wav_bytes, some (bytes "not a RIFF/WAVE file")⟩, ?_, rfl, ?_⟩
    · rw [if_pos hheader]
      rfl
    · intro _
      rw [if_pos hheader]
      rfl
  simp only [if_neg hheader, Checked.ok_bind,
    walkChunks_eq hsmall (by omega : 8 ≤ wav_bytes.length) {} (by omega : 12 ≤ wav_bytes.length)
      (by omega : wav_bytes.length < 12 + fuel)]
  cases hwalk : AplayAudioPlayer.walkChunks wav_bytes 12 {} with
  | error error => exact ⟨⟨wav_bytes, some error⟩, rfl, rfl, fun _ => rfl⟩
  | ok s =>
    obtain ⟨chunks, rest, hdrop, -, -, rfl⟩ := (walkChunks_ok_iff (by omega) (by omega)).mp hwalk
    obtain ⟨outcome, hmachine, hconfined, hmodel⟩ :=
      scalesSafely_recordAll hsmall hfuel scale hdrop (by omega)
    exact ⟨outcome, hmachine, hconfined, fun h => hmodel effective_volume (hexact h)⟩

end Call

/-- A sound with a chunk that announces more bytes than there are. -/
def corruptSound : Bytes :=
  bytes "RIFF" ++ [36, 0, 0, 0] ++ bytes "WAVE" ++ fmtId ++ [255, 255, 255, 255] ++
    List.replicate 28 0

theorem scaling_is_safe_corrupt :
    ∃ outcome, scalePcmWavInMemory (scaleWith AplayAudioPlayer.lround 50) 49 corruptSound =
        .ok outcome ∧ outcome.Confined corruptSound ∧
      outcome.result = .error (bytes "corrupt wav chunk size") := by
  have hsmall : corruptSound.length < 2 ^ 32 := by decide
  have hfuel : corruptSound.length < 49 := by decide
  obtain ⟨outcome, hmachine, hconfined, hmodel⟩ :=
    scaling_is_safe hsmall hfuel AplayAudioPlayer.lround 50
  refine ⟨outcome, hmachine, hconfined, ?_⟩
  rw [← hmodel rfl]
  decide +kernel

end VirtualChime.AplayAudioPlayer.Machine
