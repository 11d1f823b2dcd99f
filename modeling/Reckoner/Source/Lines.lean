/-!
# Lines of an input

An input is read one line at a time: the bytes up to and including the next line feed, or what
is left before the end.  A line must be UTF-8.  Reading may fail once the bytes at hand are used
up; a line that the failure cuts short is lost, and the failure is what is reported, whatever
the lost bytes were.
-/

namespace Reckoner

/-- The bytes of an input that are still to be read, and the message with which reading fails
after them, if it does not simply end. -/
structure Lines where
  bytes : List UInt8
  failure : Option String := none
deriving DecidableEq

/-- The characters that the bytes encode in UTF-8. -/
def decodeUtf8? (bytes : List UInt8) : Option (List Char) :=
  (String.fromUTF8? ⟨bytes.toArray⟩).map String.toList

/-- The bytes through the first line feed, and the bytes after it. -/
def splitLine : List UInt8 → List UInt8 × List UInt8
  | [] => ([], [])
  | b :: bs =>
    if b = 10 then ([b], bs)
    else
      let (line, rest) := splitLine bs
      (b :: line, rest)

@[simp]
theorem splitLine_nil : splitLine [] = ([], []) := rfl

theorem splitLine_append (bs : List UInt8) : (splitLine bs).1 ++ (splitLine bs).2 = bs := by
  induction bs with
  | nil => rfl
  | cons b bs ih =>
    by_cases h : b = 10
    · simp [splitLine, h]
    · simpa [splitLine, h] using ih

theorem length_splitLine_snd_lt {bs : List UInt8} (h : bs ≠ []) :
    (splitLine bs).2.length < bs.length := by
  cases bs with
  | nil => exact absurd rfl h
  | cons b bs =>
    by_cases hb : b = 10
    · simp [splitLine, hb]
    · have := congrArg List.length (splitLine_append bs)
      simp only [List.length_append] at this
      simp only [splitLine, hb, if_false, List.length_cons]
      omega

/-- What reading one line gives. -/
inductive LineRead
  | line (chars : List Char) (rest : Lines)
  | ended
  | failed (message : String)

namespace Lines

def invalidUtf8 : String := "stream did not contain valid UTF-8"

/-- The outcome of having read the bytes `line`. -/
def decodeLine (line : List UInt8) (rest : Lines) : LineRead :=
  match decodeUtf8? line with
  | some chars => .line chars rest
  | none => .failed invalidUtf8

/-- Reads one line. -/
def read (l : Lines) : LineRead :=
  let (line, rest) := splitLine l.bytes
  if line.getLast? = some 10 then decodeLine line { l with bytes := rest }
  else
    match l.failure with
    | some message => .failed message
    | none => if line = [] then .ended else decodeLine line { l with bytes := rest }

theorem decodeLine_rest {line : List UInt8} {rest rest' : Lines} {chars : List Char}
    (h : decodeLine line rest = .line chars rest') : rest' = rest := by
  unfold decodeLine at h
  split at h <;> simp_all

theorem length_bytes_lt_of_read {l rest : Lines} {chars : List Char}
    (h : l.read = .line chars rest) : rest.bytes.length < l.bytes.length := by
  have hlt : l.bytes ≠ [] → (splitLine l.bytes).2.length < l.bytes.length :=
    length_splitLine_snd_lt
  unfold read at h
  by_cases hb : l.bytes = []
  · cases hf : l.failure <;> simp [hb, hf] at h
  · simp only at h
    split at h
    · rw [decodeLine_rest h]; exact hlt hb
    · split at h
      · contradiction
      · split at h
        · contradiction
        · rw [decodeLine_rest h]; exact hlt hb

/-- All characters that can be read, up to the end or the first failing line. -/
def chars (l : Lines) : List Char :=
  match _h : l.read with
  | .line cs rest => cs ++ rest.chars
  | .ended => []
  | .failed _ => []
termination_by l.bytes.length
decreasing_by exact length_bytes_lt_of_read _h

end Lines

end Reckoner
