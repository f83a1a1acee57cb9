/-!
# Faults

An operation that does not succeed either reports an error, which is part of its contract,
or faults: it was asked for something outside the range in which it is defined, such as a
byte past the end of a page or a difference below zero.  Lengths and positions are machine
words of 64 bits, and no buffer is longer than `maxLength`.
-/

namespace StorageEngine

/-- Why a computation stops without an answer. -/
inductive Fault where
  /-- A position or a range that lies outside its buffer. -/
  | outOfRange
  /-- A sum that does not fit its word. -/
  | overflow
  /-- A difference below zero. -/
  | underflow
  /-- A quotient by zero. -/
  | divisionByZero
  /-- A buffer longer than `maxLength`. -/
  | tooLong
  deriving DecidableEq

/-- What an operation with errors in `ε` ends in when it does not succeed. -/
inductive Failure (ε : Type) where
  | error (cause : ε)
  | fault (reason : Fault)
  deriving DecidableEq

/-- The same failure with its error read as an error of a wider kind. -/
def Failure.map {ε δ : Type} (f : ε → δ) : Failure ε → Failure δ
  | .error cause => .error (f cause)
  | .fault reason => .fault reason

/-- Lengths and positions are below `wordLimit`. -/
def wordLimit : Nat := UInt64.size

/-- The length of the longest buffer. -/
def maxLength : Nat := 9223372036854775807

/-- The sum of two lengths, if it is one. -/
def addLengths (a b : Nat) : Except Fault Nat :=
  if a + b < wordLimit then .ok (a + b) else .error .overflow

/-- The difference of two lengths, if it is one. -/
def subLengths (a b : Nat) : Except Fault Nat :=
  if b ≤ a then .ok (a - b) else .error .underflow

/-- The zero-filled buffer of a given length. -/
def zeros (length : Nat) : Except Fault (List UInt8) :=
  if length ≤ maxLength then .ok (List.replicate length 0) else .error .tooLong

/-- A computation that can only fault, as one that can also report errors. -/
def orFault {ε α : Type} : Except Fault α → Except (Failure ε) α
  | .ok a => .ok a
  | .error fault => .error (.fault fault)

/-- A computation whose errors are read as errors of a wider kind. -/
def widen {ε δ α : Type} (f : ε → δ) : Except (Failure ε) α → Except (Failure δ) α
  | .ok a => .ok a
  | .error failure => .error (failure.map f)

end StorageEngine
