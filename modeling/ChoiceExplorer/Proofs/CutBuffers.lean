import ChoiceExplorer.Output.Buffer

/-!
# Cut output

What a buffer with a limit holds is the beginning of what a buffer without one
receives.  A write keeps it so, whether it fails or not, and once the limit is
reached nothing that is left out makes a difference.
-/

namespace ChoiceExplorer.Output.Buffer

def bytesOf (texts : List String) : ByteArray := (String.join texts).toUTF8

theorem bytesOf_nil : bytesOf [] = .empty := rfl

theorem bytesOf_cons (text : String) (rest : List String) :
    bytesOf (text :: rest) = text.toUTF8 ++ bytesOf rest := by
  simp [bytesOf]

theorem bytesOf_append (first second : List String) :
    bytesOf (first ++ second) = bytesOf first ++ bytesOf second := by
  simp [bytesOf]

def whole (received : ByteArray) : Buffer := { accepted := received }

/-- A buffer that has accepted what it received up to a limit. -/
def cutAt (limit : Nat) (flushFails : Bool) (received : ByteArray) : Buffer :=
  { accepted := received.extract 0 limit, limit := some limit, flushFails }

variable {limit : Nat} {flushFails : Bool} {received bytes : ByteArray}

theorem write_whole (received : ByteArray) (text : String) :
    (whole received).write text = (.ok (), whole (received ++ text.toUTF8)) := by
  simp [write, whole, fits]

theorem size_cutAt : (cutAt limit flushFails received).accepted.size = min limit received.size := by
  rw [cutAt, ByteArray.size_extract, Nat.sub_zero]

/-- Of further bytes the part is accepted for which there is room. -/
theorem cutAt_append (limit : Nat) (flushFails : Bool) (received bytes : ByteArray) :
    cutAt limit flushFails (received ++ bytes) =
      { cutAt limit flushFails received with
        accepted := (cutAt limit flushFails received).accepted ++
          bytes.extract 0 (limit - received.size) } := by
  rw [cutAt, cutAt, ByteArray.extract_append, Nat.zero_sub]

def hasRoom (limit : Nat) (received bytes : ByteArray) : Bool :=
  bytes.isEmpty || (received ++ bytes).size ≤ limit

theorem extract_of_hasRoom (room : hasRoom limit received bytes = true) :
    bytes.extract 0 (limit - received.size) = bytes := by
  have enough : bytes.size ≤ limit - received.size := by
    rw [hasRoom, Bool.or_eq_true, ByteArray.isEmpty, beq_iff_eq, decide_eq_true_eq,
      ByteArray.size_append] at room
    omega
  rw [← Nat.max_eq_left enough, ByteArray.extract_zero_max_size]

theorem fits_cutAt :
    (bytes.isEmpty || (cutAt limit flushFails received).fits bytes.size) =
      hasRoom limit received bytes := by
  rw [hasRoom, Bool.eq_iff_iff, Bool.or_eq_true, Bool.or_eq_true, ByteArray.isEmpty, beq_iff_eq]
  have fits_iff : (cutAt limit flushFails received).fits bytes.size = true ↔
      (cutAt limit flushFails received).accepted.size + bytes.size ≤ limit := decide_eq_true_iff
  rw [fits_iff, size_cutAt, decide_eq_true_eq, ByteArray.size_append]
  omega

/-- A write that is cut leaves what is cut from the whole. -/
theorem write_cutAt (limit : Nat) (flushFails : Bool) (received : ByteArray) (text : String) :
    (cutAt limit flushFails received).write text =
      (if hasRoom limit received text.toUTF8 then .ok () else .error .full,
        cutAt limit flushFails (received ++ text.toUTF8)) := by
  rw [write, cutAt_append]
  dsimp only
  rw [fits_cutAt]
  split
  · rename_i room
    rw [extract_of_hasRoom room]
  · have left : (cutAt limit flushFails received).limit.getD 0 -
        (cutAt limit flushFails received).accepted.size = limit - received.size := by
      rw [size_cutAt]
      show limit - min limit received.size = limit - received.size
      omega
    rw [left]

/-- Bytes without room reach beyond the limit. -/
theorem lt_of_not_hasRoom (beyond : hasRoom limit received bytes = false) :
    limit < (received ++ bytes).size := by
  rw [hasRoom, Bool.or_eq_false_iff, decide_eq_false_iff_not] at beyond
  exact Nat.lt_of_not_le beyond.2

/-- Whatever is written to the buffers of a family, they hold what they receive. -/
def Keeps (buffer : ByteArray → Buffer) : Prop :=
  ∀ received text, ((buffer received).write text).2 = buffer (received ++ text.toUTF8)

theorem keeps_whole : Keeps whole := fun received text => by rw [write_whole]

theorem keeps_cutAt (limit : Nat) (flushFails : Bool) : Keeps (cutAt limit flushFails) :=
  fun received text => by rw [write_cutAt]

/-- Beyond the limit nothing is accepted. -/
theorem cutAt_append_of_le (le : limit ≤ received.size) (bytes : ByteArray) :
    cutAt limit flushFails (received ++ bytes) = cutAt limit flushFails received := by
  have beyond : limit - received.size = 0 := Nat.sub_eq_zero_of_le le
  rw [cutAt_append, beyond, ByteArray.extract_same, ByteArray.append_empty]

/-- What is accepted up to a limit is the beginning of what is received. -/
theorem exists_rest (limit : Nat) (flushFails : Bool) (received : ByteArray) :
    ∃ rest, received = (cutAt limit flushFails received).accepted ++ rest := by
  refine ⟨received.extract limit (max limit received.size), ?_⟩
  rw [cutAt, ByteArray.extract_append_extract, Nat.zero_min, Nat.max_eq_right (Nat.le_max_left _ _),
    ByteArray.extract_zero_max_size]

end ChoiceExplorer.Output.Buffer
