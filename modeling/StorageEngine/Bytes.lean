/-!
# Bytes

Byte strings, the ranges of a byte string, and the four-byte words in them.  A word is
stored with its lowest byte first.  The main statements say that a stored word reads back
(`decode?_encode`), and that overwriting a range keeps the length (`length_overwrite`) and is
read from that range (`take_drop_overwrite`).
-/

namespace StorageEngine

/-- A string of bytes. -/
abbrev Bytes := List UInt8

namespace Bytes

/-- The `length` bytes from position `start` on, if there are as many. -/
def slice? (bytes : Bytes) (start length : Nat) : Option Bytes :=
  if start + length ≤ bytes.length then some ((bytes.drop start).take length) else none

/-- The bytes with `data` in place of those from position `start` on. -/
def overwrite (bytes : Bytes) (start : Nat) (data : Bytes) : Bytes :=
  bytes.take start ++ data ++ bytes.drop (start + data.length)

/-- The bytes with `data` in place of those from position `start` on, if it fits. -/
def overwrite? (bytes : Bytes) (start : Nat) (data : Bytes) : Option Bytes :=
  if start + data.length ≤ bytes.length then some (bytes.overwrite start data) else none

/-- Overwriting a range that lies within the bytes keeps their length. -/
theorem length_overwrite {bytes data : Bytes} {start : Nat}
    (h : start + data.length ≤ bytes.length) :
  (bytes.overwrite start data).length = bytes.length
  := by
  simp only [overwrite, List.length_append, List.length_take, List.length_drop]
  omega

/-- What was written over a range is read from it. -/
theorem take_drop_overwrite {bytes data : Bytes} {start : Nat} (h : start ≤ bytes.length) :
  ((bytes.overwrite start data).drop start).take data.length = data
  := by
  have length : (bytes.take start).length = start := by simp [h]
  rw [overwrite, List.append_assoc, List.drop_left' length, List.take_left' rfl]

/-- What is found at a position after a range was overwritten. -/
theorem getElem?_overwrite {bytes : Bytes} {start : Nat} (data : Bytes) (h : start ≤ bytes.length)
    (i : Nat) :
  (bytes.overwrite start data)[i]?
    = if start ≤ i ∧ i < start + data.length then data[i - start]? else bytes[i]?
  := by
  have length : (bytes.take start).length = start := by simp [h]
  rw [overwrite, List.append_assoc, List.getElem?_append, length]
  by_cases before : i < start
  · rw [if_pos before, if_neg (by omega), List.getElem?_take_of_lt before]
  · rw [if_neg before, List.getElem?_append]
    by_cases inside : i - start < data.length
    · rw [if_pos inside, if_pos (by omega)]
    · rw [if_neg inside, if_neg (by omega), List.getElem?_drop]
      congr 1
      omega

/-- A range beside the one that was overwritten stays. -/
theorem take_drop_overwrite_of_disjoint {bytes : Bytes} {start first length : Nat} (data : Bytes)
    (h : start ≤ bytes.length)
    (disjoint : first + length ≤ start ∨ start + data.length ≤ first) :
  ((bytes.overwrite start data).drop first).take length = (bytes.drop first).take length
  := by
  apply List.ext_getElem?
  intro i
  simp only [List.getElem?_take, List.getElem?_drop, getElem?_overwrite data h]
  by_cases within : i < length
  · rw [if_pos within, if_pos within, if_neg (by omega)]
  · rw [if_neg within, if_neg within]

end Bytes

/-! ## Words -/

namespace Word

/-- The four bytes of a word, lowest first. -/
def encode (word : UInt32) : Bytes :=
  [ UInt8.ofNat word.toNat,
    UInt8.ofNat (word.toNat / 256),
    UInt8.ofNat (word.toNat / 65536),
    UInt8.ofNat (word.toNat / 16777216) ]

/-- The word that the first four bytes spell. -/
def decode? : Bytes → Option UInt32
  | a :: b :: c :: d :: _ =>
    some (UInt32.ofNat (a.toNat + 256 * b.toNat + 65536 * c.toNat + 16777216 * d.toNat))
  | _ => none

@[simp]
theorem length_encode (word : UInt32) :
  (encode word).length = 4
  := rfl

/-- A word is read from its own bytes alone. -/
theorem decode?_take (bytes : Bytes) (n : Nat) :
  decode? (bytes.take (n + 4)) = decode? bytes
  := by
  match bytes with
  | [] | [_] | [_, _] | [_, _, _] | _ :: _ :: _ :: _ :: _ => rfl

/-- A stored word reads back, whatever follows it. -/
@[simp]
theorem decode?_encode (word : UInt32) (rest : Bytes) :
  decode? (encode word ++ rest) = some word
  := by
  have bound := word.toNat_lt
  simp only [encode, decode?, List.cons_append, List.nil_append, UInt8.toNat_ofNat',
    Option.some.injEq]
  apply UInt32.toNat_inj.mp
  rw [UInt32.toNat_ofNat']
  omega

end Word

end StorageEngine
