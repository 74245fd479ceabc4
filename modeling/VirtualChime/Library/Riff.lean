import Mathlib.Data.Nat.Digits.Defs
import Mathlib.Tactic

/-!
# RIFF chunks

A RIFF file is a header and a list of chunks: an id of four bytes, the length of the
data in four bytes with the low byte first, the data, and a padding byte where the
length is odd.  The lemmas of `Chunk` and `exists_chunk` say how a chunk is taken off the
front of some bytes.
-/

namespace Riff

/-! ## 1. Little-endian numbers -/

/-- The number that some bytes hold, the low byte first. -/
def ofLe (bs : List UInt8) : Nat := Nat.ofDigits 256 (bs.map UInt8.toNat)

/-- A number in four bytes. -/
def le32 (n : Nat) : List UInt8 :=
  [UInt8.ofNat n, UInt8.ofNat (n / 2 ^ 8), UInt8.ofNat (n / 2 ^ 16), UInt8.ofNat (n / 2 ^ 24)]

@[simp] theorem length_le32 (n : Nat) : (le32 n).length = 4 := rfl

@[simp] theorem ofLe_nil : ofLe [] = 0 := rfl

@[simp] theorem ofLe_cons (b : UInt8) (bs : List UInt8) :
    ofLe (b :: bs) = b.toNat + 256 * ofLe bs :=
  Nat.ofDigits_cons ..

theorem ofLe_le32 {n : Nat} (h : n < 2 ^ 32) : ofLe (le32 n) = n := by
  simp only [le32, ofLe_cons, ofLe_nil, UInt8.toNat_ofNat']
  omega

theorem ofLe_lt {bs : List UInt8} (h : bs.length = 4) : ofLe bs < 2 ^ 32 := by
  match bs, h with
  | [a, b, c, d], _ =>
    have ha := a.toNat_lt
    have hb := b.toNat_lt
    have hc := c.toNat_lt
    have hd := d.toNat_lt
    simp only [ofLe_cons, ofLe_nil]
    omega

theorem le32_ofLe {bs : List UInt8} (h : bs.length = 4) : le32 (ofLe bs) = bs := by
  match bs, h with
  | [a, b, c, d], _ =>
    have ha := a.toNat_lt
    have hb := b.toNat_lt
    have hc := c.toNat_lt
    have hd := d.toNat_lt
    simp only [ofLe_cons, ofLe_nil, le32, List.cons.injEq, and_true]
    refine ⟨?_, ?_, ?_, ?_⟩ <;>
    · apply UInt8.toNat_inj.mp
      rw [UInt8.toNat_ofNat']
      omega

/-! ## 2. Chunks -/

structure Chunk where
  id : List UInt8
  data : List UInt8
  pad : List UInt8
  id_length : id.length = 4
  data_length : data.length < 2 ^ 32
  pad_length : pad.length = data.length % 2

namespace Chunk

/-- The bytes of a chunk in a file. -/
def encode (c : Chunk) : List UInt8 := c.id ++ le32 c.data.length ++ c.data ++ c.pad

theorem length_encode (c : Chunk) :
    c.encode.length = 8 + c.data.length + c.data.length % 2 := by
  simp only [encode, List.length_append, c.id_length, length_le32, c.pad_length]

/-- What stands at the front of some bytes that start with a chunk. -/
theorem take_id (c : Chunk) (tail : List UInt8) : (c.encode ++ tail).take 4 = c.id := by
  rw [encode, List.append_assoc, List.append_assoc, List.append_assoc]
  exact List.take_left' c.id_length

theorem drop_id (c : Chunk) (tail : List UInt8) :
    (c.encode ++ tail).drop 4 = le32 c.data.length ++ (c.data ++ (c.pad ++ tail)) := by
  rw [encode, List.append_assoc, List.append_assoc, List.append_assoc]
  exact List.drop_left' c.id_length

theorem take_size (c : Chunk) (tail : List UInt8) :
    ((c.encode ++ tail).drop 4).take 4 = le32 c.data.length := by
  rw [drop_id]
  exact List.take_left' (length_le32 _)

theorem drop_size (c : Chunk) (tail : List UInt8) :
    (c.encode ++ tail).drop 8 = c.data ++ (c.pad ++ tail) := by
  have hdrop : (c.encode ++ tail).drop 8 = ((c.encode ++ tail).drop 4).drop 4 := by
    rw [List.drop_drop]
  rw [hdrop, drop_id]
  exact List.drop_left' (length_le32 _)

end Chunk

theorem take_append_drop_add (bs : List UInt8) (i n : Nat) :
    (bs.drop i).take n ++ bs.drop (i + n) = bs.drop i := by
  rw [← List.drop_drop, List.take_append_drop]

/-- Some bytes whose header announces no more than is there start with a chunk. -/
theorem exists_chunk {bs : List UInt8} {size : Nat} (h8 : 8 ≤ bs.length)
    (hsize : ofLe ((bs.drop 4).take 4) = size) (hfit : 8 + size + size % 2 ≤ bs.length) :
    ∃ c : Chunk, c.data.length = size ∧ bs = c.encode ++ bs.drop (8 + size + size % 2) := by
  have hfield : ((bs.drop 4).take 4).length = 4 := by
    rw [List.length_take, List.length_drop]
    omega
  have hdata : ((bs.drop 8).take size).length = size := by
    rw [List.length_take, List.length_drop]
    omega
  refine ⟨⟨bs.take 4, (bs.drop 8).take size, (bs.drop (8 + size)).take (size % 2), ?_, ?_, ?_⟩,
    hdata, ?_⟩
  · rw [List.length_take]
    omega
  · rw [hdata, ← hsize]
    exact ofLe_lt hfield
  · rw [hdata, List.length_take, List.length_drop]
    omega
  · have hle : le32 ((bs.drop 8).take size).length = (bs.drop 4).take 4 := by
      rw [hdata, ← hsize]
      exact le32_ofLe hfield
    rw [Chunk.encode, hle]
    calc bs = bs.take 4 ++ bs.drop 4 := (List.take_append_drop ..).symm
      _ = bs.take 4 ++ ((bs.drop 4).take 4 ++ ((bs.drop 8).take size ++
          ((bs.drop (8 + size)).take (size % 2) ++ bs.drop (8 + size + size % 2)))) := by
        rw [take_append_drop_add, take_append_drop_add, take_append_drop_add]
      _ = _ := by simp only [List.append_assoc]

/-! ## 3. Files -/

def encodeAll (chunks : List Chunk) : List UInt8 := chunks.flatMap Chunk.encode

@[simp] theorem encodeAll_nil : encodeAll [] = [] := rfl

@[simp] theorem encodeAll_cons (c : Chunk) (cs : List Chunk) :
    encodeAll (c :: cs) = c.encode ++ encodeAll cs := rfl

/-- The last chunk with an id. -/
def lastOf (id : List UInt8) (chunks : List Chunk) : Option Chunk :=
  (chunks.filter fun c => c.id = id).getLast?

theorem lastOf_cons_or (id : List UInt8) (c : Chunk) (cs : List Chunk) (before : Option Chunk) :
    (lastOf id (c :: cs)).or before =
      (lastOf id cs).or (if c.id = id then some c else before) := by
  rw [lastOf, lastOf, List.filter_cons]
  by_cases hid : c.id = id
  · rw [if_pos (decide_eq_true hid), if_pos hid, List.getLast?_cons]
    cases (cs.filter fun c => c.id = id).getLast? with
    | none => rfl
    | some last => rfl
  · rw [if_neg (by simpa using hid), if_neg hid]

theorem lastOf_spec {id : List UInt8} {chunks : List Chunk} {c : Chunk}
    (h : lastOf id chunks = some c) : c ∈ chunks ∧ c.id = id := by
  have hmem := List.mem_filter.mp (List.mem_of_getLast? h)
  exact ⟨hmem.1, of_decide_eq_true hmem.2⟩

theorem length_encode_le {c : Chunk} {chunks : List Chunk} (h : c ∈ chunks) :
    c.encode.length ≤ (encodeAll chunks).length :=
  (List.sublist_flatten_of_mem (List.mem_map_of_mem h)).length_le

/-- Two chunks with different ids both count. -/
theorem length_encode_add_le {c d : Chunk} {chunks : List Chunk} (hc : c ∈ chunks)
    (hd : d ∈ chunks) (hne : c.id ≠ d.id) :
    c.encode.length + d.encode.length ≤ (encodeAll chunks).length := by
  induction chunks with
  | nil => cases hc
  | cons first chunks ih =>
    rw [encodeAll_cons, List.length_append]
    rcases List.mem_cons.mp hc with rfl | hcs
    · rcases List.mem_cons.mp hd with rfl | hds
      · exact absurd rfl hne
      · have hle := length_encode_le hds
        omega
    · rcases List.mem_cons.mp hd with rfl | hds
      · have hle := length_encode_le hcs
        omega
      · have hle := ih hcs hds
        omega

end Riff
