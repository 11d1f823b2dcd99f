/-!
# Output sinks

A sink takes bytes.  One with limited room takes what fits and fails at the first byte that does
not; after that every write of at least one byte fails.  `Sink.bytes` is all that was taken.
-/

namespace Reckoner

/-- The one way in which writing fails. -/
structure SinkFull where
deriving DecidableEq

def SinkFull.message (_ : SinkFull) : String := "sink full"

structure Sink where
  bytes : Array UInt8 := #[]
  /-- How many more bytes are taken; `none` for no limit. -/
  room : Option Nat := none
deriving DecidableEq

namespace SinkFull

variable {σ α β : Type} {x : EStateM SinkFull σ α} {f : α → EStateM SinkFull σ β} {s t : σ}

theorem bind_of_ok {a : α} (h : x s = .ok a t) : (x >>= f) s = f a t := by
  change EStateM.bind x f s = _
  unfold EStateM.bind
  rw [h]

theorem bind_of_error {e : SinkFull} (h : x s = .error e t) : (x >>= f) s = .error e t := by
  change EStateM.bind x f s = _
  unfold EStateM.bind
  rw [h]

theorem bind_eq_ok {b : β} (h : (x >>= f) s = .ok b t) :
    ∃ a s', x s = .ok a s' ∧ f a s' = .ok b t := by
  cases hx : x s with
  | ok a s' => exact ⟨a, s', rfl, (bind_of_ok hx).symm.trans h⟩
  | error e s' =>
    rw [bind_of_error hx] at h
    contradiction

end SinkFull

/-- The UTF-8 encoding of a text. -/
def utf8 (text : String) : Array UInt8 :=
  text.toUTF8.data

namespace Sink

def unlimited : Sink := {}

def limited (room : Nat) : Sink := { room := some room }

def write (bytes : Array UInt8) : EStateM SinkFull Sink Unit := fun s =>
  match s.room with
  | none => .ok () { s with bytes := s.bytes ++ bytes }
  | some n =>
    if bytes.size ≤ n then .ok () ⟨s.bytes ++ bytes, some (n - bytes.size)⟩
    else .error {} ⟨s.bytes ++ bytes.take n, some 0⟩

def writeText (text : String) : EStateM SinkFull Sink Unit :=
  write (utf8 text)

theorem bytes_of_writeText {text : String} {s t : Sink} (h : writeText text s = .ok () t) :
    t.bytes = s.bytes ++ utf8 text := by
  unfold writeText write at h
  split at h
  · cases h
    rfl
  · split at h
    · cases h
      rfl
    · contradiction

end Sink

end Reckoner
