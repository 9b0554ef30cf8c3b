import Granum.Payload.PictureTransfer

/-! Two instances of `PictureListener`. Until a listener has written its first picture it extends the
list of the class, which is then the list of the other one as well.
-/

namespace Granum.Payload

namespace PictureListener

variable (l : PictureListener)

/-- The attributes as values. -/
def values : PictureBuffer := ⟨l.dataPacketsCount, l.totalSize, l.collected⟩

theorem accept_values (msg : PictureMessage)
    : l.values.accept msg = ((l.acceptMessage msg).1.values, (l.acceptMessage msg).2) := by
  have step := pictureListenerValues.of_some l msg msg rfl
  have written : (l.acceptMessage msg).2.filterMap some = (l.acceptMessage msg).2 :=
    List.filterMap_some
  exact step.trans (Prod.ext rfl written)

end PictureListener

/-- The bytes that a message brings. -/
def PictureMessage.data : PictureMessage → List UInt8
  | .dataTransmissionHandshake _ => []
  | .encapsulatedData msg => msg.data

/-- The message is the last packet of what has been announced. -/
def PictureBuffer.Completes (b : PictureBuffer) : PictureMessage → Prop
  | .dataTransmissionHandshake _ => False
  | .encapsulatedData msg => (msg.seqnr.toNat : ℤ) = b.dataPacketsCount - 1

instance (b : PictureBuffer) (msg : PictureMessage) : Decidable (b.Completes msg) :=
  match msg with
  | .dataTransmissionHandshake _ => inferInstanceAs (Decidable False)
  | .encapsulatedData msg =>
      inferInstanceAs (Decidable ((msg.seqnr.toNat : ℤ) = b.dataPacketsCount - 1))

@[simp] theorem PictureBuffer.completes_handshake (b : PictureBuffer)
    (msg : DataTransmissionHandshake)
    : b.Completes (.dataTransmissionHandshake msg) ↔ False := Iff.rfl

@[simp] theorem PictureBuffer.completes_data (b : PictureBuffer) (msg : EncapsulatedData)
    : b.Completes (.encapsulatedData msg)
      ↔ (msg.seqnr.toNat : ℤ) = b.dataPacketsCount - 1 := Iff.rfl

namespace PictureListener

open ListHeap (ChangedAt)

variable {l : PictureListener} {msg : PictureMessage}

/-- A message that completes nothing extends the list of the listener. -/
theorem accept_collecting (collecting : ¬ l.values.Completes msg)
    : (l.acceptMessage msg).1.ref = l.ref
      ∧ ChangedAt l.ref l.heap (l.acceptMessage msg).1.heap
      ∧ (l.acceptMessage msg).1.heap.read l.ref = l.collected ++ msg.data := by
  cases msg with
  | dataTransmissionHandshake msg => exact ⟨rfl, ChangedAt.refl, (List.append_nil _).symm⟩
  | encapsulatedData msg =>
      have other : ¬ (msg.seqnr.toNat : ℤ) = (l.extend msg.data).dataPacketsCount - 1 := collecting
      simp only [acceptMessage, acceptData, if_neg other]
      exact ⟨rfl, ListHeap.changedAt_extend msg.data, l.heap.read_extend_same l.allocated msg.data⟩

/-- A message that completes a picture extends the list of the listener, which gets another one. -/
theorem accept_completing (completing : l.values.Completes msg)
    : l.heap.size ≤ (l.acceptMessage msg).1.ref
      ∧ ChangedAt l.ref l.heap (l.acceptMessage msg).1.heap
      ∧ (l.acceptMessage msg).1.heap.read l.ref = l.collected ++ msg.data := by
  cases msg with
  | dataTransmissionHandshake msg => cases completing
  | encapsulatedData msg =>
      have last : (msg.seqnr.toNat : ℤ) = (l.extend msg.data).dataPacketsCount - 1 := completing
      simp only [acceptMessage, acceptData, if_pos last]
      set extended := l.extend msg.data
      set cut := extended.assign (extended.collected.take extended.totalSize)
      have size : extended.heap.size = l.heap.size := ListHeap.size_extend _ _ _
      have longer : cut.heap.size = extended.heap.size + 1 := ListHeap.size_alloc _ _
      have kept : ∀ a < l.heap.size, (cut.assign []).heap.read a = extended.heap.read a := by
        intro a old
        have first := extended.heap.read_alloc_old (size ▸ old)
          (extended.collected.take extended.totalSize)
        have second := cut.heap.read_alloc_old (show a < cut.heap.size by omega) []
        exact second.trans first
      refine ⟨?_, ⟨?_, fun a old other => ?_⟩, ?_⟩
      · change l.heap.size ≤ cut.heap.size
        omega
      · change l.heap.size ≤ (cut.heap.alloc []).1.size
        rw [ListHeap.size_alloc]
        omega
      · rw [kept a old]
        exact l.heap.read_extend_other other msg.data
      · rw [kept l.ref l.allocated]
        exact l.heap.read_extend_same l.allocated msg.data

/-- Every message extends the list of the listener, and leaves the other lists alone. -/
theorem accept_heap (l : PictureListener) (msg : PictureMessage)
    : ChangedAt l.ref l.heap (l.acceptMessage msg).1.heap
      ∧ (l.acceptMessage msg).1.heap.read l.ref = l.collected ++ msg.data := by
  by_cases completes : l.values.Completes msg
  · exact (accept_completing completes).2
  · exact (accept_collecting completes).2

end PictureListener

-----------------------------------------------------------------------------------------
-- The two instances
-----------------------------------------------------------------------------------------

/-- The attributes of an instance. -/
structure ListenerAttributes where
  dataPacketsCount : ℕ := 0
  totalSize : ℕ := 0
  wholeData : Option ℕ := none
  deriving DecidableEq, Repr

/-- Two instances, by side, and all lists. -/
structure Listeners where
  heap : ListHeap UInt8 := ⟨[[]]⟩
  attributes : Bool → ListenerAttributes := fun _ => {}
  allocated : ∀ side, (attributes side).wholeData.getD classData < heap.size := by decide

namespace Listeners

variable (s : Listeners)

def listener (side : Bool) : PictureListener where
  heap := s.heap
  dataPacketsCount := (s.attributes side).dataPacketsCount
  totalSize := (s.attributes side).totalSize
  wholeData := (s.attributes side).wholeData
  allocated := s.allocated side

/-- The instances with another state of one of them. -/
def replace (side : Bool) (l : PictureListener)
    (grown : (s.listener side).heap.size ≤ l.heap.size) : Listeners where
  heap := l.heap
  attributes := Function.update s.attributes side ⟨l.dataPacketsCount, l.totalSize, l.wholeData⟩
  allocated := by
    intro other
    rcases eq_or_ne other side with rfl | distinct
    · simpa using l.allocated
    · simpa [distinct] using (s.allocated other).trans_le grown

/-- `accept_message` of the instance on a side, with the contents written to its file. -/
def acceptMessage (side : Bool) (msg : PictureMessage) : Listeners × List (Bool × List UInt8) :=
  (s.replace side ((s.listener side).acceptMessage msg).1
      ((s.listener side).accept_heap msg).1.grown,
    ((s.listener side).acceptMessage msg).2.map (side, ·))

theorem listener_replace_same (side : Bool) (l : PictureListener)
    (grown : (s.listener side).heap.size ≤ l.heap.size)
    : (s.replace side l grown).listener side = l := by
  simp [replace, listener]

theorem listener_replace_other {side other : Bool} (distinct : other ≠ side) (l : PictureListener)
    (grown : (s.listener side).heap.size ≤ l.heap.size)
    : ((s.replace side l grown).listener other).ref = (s.listener other).ref
      ∧ ((s.replace side l grown).listener other).values
        = { (s.listener other).values with wholeData := l.heap.read (s.listener other).ref } := by
  simp [replace, listener, PictureListener.values, PictureListener.collected, PictureListener.ref,
    distinct]

end Listeners

def listeners : Mealy Listeners (Bool × PictureMessage) (Bool × List UInt8) :=
  ⟨fun s message => s.acceptMessage message.1 message.2⟩

/-- What belongs to one side. -/
def onSide {α : Type} (side : Bool) (entries : List (Bool × α)) : List α :=
  entries.filterMap fun entry => if entry.1 = side then some entry.2 else none

-----------------------------------------------------------------------------------------
-- The instances as values
-----------------------------------------------------------------------------------------

/-- What each listener would have collected alone, whether it has written a picture, and the list of
the class.
-/
structure Listening where
  classData : List UInt8 := []
  alone : Bool → PictureBuffer := fun _ => {}
  finished : Bool → Bool := fun _ => false

namespace Listening

variable (v : Listening)

/-- What a listener has: a list of its own once it has written a picture. -/
def joint (side : Bool) : PictureBuffer :=
  if v.finished side then v.alone side else { v.alone side with wholeData := v.classData }

def accept (side : Bool) (msg : PictureMessage) : Listening × List (Bool × List UInt8) :=
  ({ classData := if v.finished side then v.classData else v.classData ++ msg.data
     alone := Function.update v.alone side ((v.alone side).accept msg).1
     finished := Function.update v.finished side
       (v.finished side || decide ((v.alone side).Completes msg)) },
    ((v.joint side).accept msg).2.map (side, ·))

end Listening

def listening : Mealy Listening (Bool × PictureMessage) (Bool × List UInt8) :=
  ⟨fun v message => v.accept message.1 message.2⟩

/-- The values of two instances: those that have written no picture have the list of the class, and
the others have a list each.
-/
structure Represents (s : Listeners) (v : Listening) : Prop where
  classData : s.heap.read classData = v.classData
  values : ∀ side, (s.listener side).values = v.joint side
  shared : ∀ side, (s.listener side).ref = Payload.classData ↔ v.finished side = false
  apart : ∀ side, v.finished side = true → (s.listener side).ref ≠ (s.listener !side).ref

namespace Listening

variable {v : Listening} {side other : Bool} {msg : PictureMessage}

theorem completes_joint : (v.joint side).Completes msg ↔ (v.alone side).Completes msg := by
  have count : (v.joint side).dataPacketsCount = (v.alone side).dataPacketsCount := by
    unfold joint
    split_ifs <;> rfl
  cases msg with
  | dataTransmissionHandshake msg => rfl
  | encapsulatedData msg => rw [PictureBuffer.Completes, PictureBuffer.Completes, count]

/-- A listener goes on with what it has. -/
theorem joint_accept_same : (v.accept side msg).1.joint side = ((v.joint side).accept msg).1 := by
  cases done : v.finished side with
  | true => simp [joint, accept, done]
  | false =>
      cases msg with
      | dataTransmissionHandshake msg =>
          simp [joint, accept, done, PictureBuffer.accept, PictureMessage.data]
      | encapsulatedData msg =>
          by_cases last : (msg.seqnr.toNat : ℤ) = (v.alone side).dataPacketsCount - 1
          · simp [joint, accept, done, PictureBuffer.accept, last]
          · simp [joint, accept, done, PictureBuffer.accept, last, PictureMessage.data]

/-- The other one sees no more than the list of the class. -/
theorem joint_accept_other (distinct : other ≠ side)
    : (v.accept side msg).1.joint other
      = if v.finished other then v.joint other
        else { v.joint other with wholeData := (v.accept side msg).1.classData } := by
  cases done : v.finished other <;> simp [joint, accept, done, distinct]

end Listening

theorem represents_start : Represents {} {} := by
  refine ⟨rfl, fun side => rfl, fun side => ?_, fun side finished => ?_⟩
  · exact iff_of_true rfl rfl
  · cases finished

namespace Represents

variable {s : Listeners} {v : Listening}

/-- The list of the class grows as long as the listener has no other. -/
theorem classData_accept (r : Represents s v) (side : Bool) (msg : PictureMessage)
    : ((s.listener side).acceptMessage msg).1.heap.read Payload.classData
      = (v.accept side msg).1.classData := by
  obtain ⟨changed, extended⟩ := (s.listener side).accept_heap msg
  cases done : v.finished side with
  | false =>
      have ref := (r.shared side).mpr done
      have collected : (s.listener side).collected = v.classData := by
        rw [PictureListener.collected, ref]
        exact r.classData
      rw [ref, collected] at extended
      simpa [Listening.accept, done] using extended
  | true =>
      have ref : Payload.classData ≠ (s.listener side).ref := by
        intro same
        exact absurd ((r.shared side).mp same.symm) (by simp [done])
      have old : Payload.classData < s.heap.size := Nat.zero_lt_of_lt (s.allocated side)
      rw [changed.others _ old ref, Listening.accept, if_pos done]
      exact r.classData

/-- A listener that completes a picture gets a list of its own. -/
theorem fresh (r : Represents s v) {side : Bool} {msg : PictureMessage}
    (completes : (v.alone side).Completes msg)
    : s.heap.size ≤ ((s.listener side).acceptMessage msg).1.ref := by
  rw [← Listening.completes_joint, ← r.values side] at completes
  exact (PictureListener.accept_completing completes).1

/-- Otherwise it keeps the one it has. -/
theorem stays (r : Represents s v) {side : Bool} {msg : PictureMessage}
    (collecting : ¬ (v.alone side).Completes msg)
    : ((s.listener side).acceptMessage msg).1.ref = (s.listener side).ref := by
  rw [← Listening.completes_joint, ← r.values side] at collecting
  exact (PictureListener.accept_collecting collecting).1

/-- The list that the other listener has is the one of the class, or untouched. -/
theorem read_other (r : Represents s v) {side other : Bool} (msg : PictureMessage)
    (distinct : other ≠ side)
    : ((s.listener side).acceptMessage msg).1.heap.read (s.listener other).ref
      = if v.finished other then (s.listener other).collected
        else (v.accept side msg).1.classData := by
  obtain ⟨changed, -⟩ := (s.listener side).accept_heap msg
  cases done : v.finished other with
  | true =>
      have apart := r.apart other done
      rw [(Bool.eq_not.mpr distinct.symm).symm] at apart
      exact changed.others _ (s.allocated other) apart
  | false =>
      rw [(r.shared other).mpr done]
      exact r.classData_accept side msg

section Accept

variable (r : Represents s v) (side other : Bool) (msg : PictureMessage)
include r

/-- The listener of the message has its new values, and the other one those of its list. -/
theorem values_accept
    : ((s.acceptMessage side msg).1.listener other).values
      = (v.accept side msg).1.joint other := by
  obtain ⟨changed, -⟩ := (s.listener side).accept_heap msg
  rcases eq_or_ne other side with rfl | distinct
  · have accepted := (s.listener other).accept_values msg
    rw [r.values other] at accepted
    rw [Listening.joint_accept_same, accepted]
    exact congrArg PictureListener.values (s.listener_replace_same other _ changed.grown)
  · rw [Listening.joint_accept_other distinct, ← r.values other]
    refine (s.listener_replace_other distinct _ changed.grown).2.trans ?_
    have read := r.read_other msg distinct
    cases done : v.finished other with
    | true =>
        rw [done] at read
        exact congrArg (PictureBuffer.mk _ _) read
    | false =>
        rw [done] at read
        exact congrArg (PictureBuffer.mk _ _) read

/-- The list of the class is given up with the first picture. -/
theorem shared_accept
    : ((s.acceptMessage side msg).1.listener other).ref = Payload.classData
      ↔ (v.accept side msg).1.finished other = false := by
  obtain ⟨changed, -⟩ := (s.listener side).accept_heap msg
  rcases eq_or_ne other side with rfl | distinct
  · have same : (s.acceptMessage other msg).1.listener other
        = ((s.listener other).acceptMessage msg).1 :=
      s.listener_replace_same other _ changed.grown
    rw [same]
    by_cases completes : (v.alone other).Completes msg
    · have later := (Nat.zero_lt_of_lt (s.allocated other)).trans_le (r.fresh completes)
      exact iff_of_false later.ne' (by simp [Listening.accept, completes])
    · rw [r.stays completes, r.shared other]
      simp [Listening.accept, completes]
  · have kept : ((s.acceptMessage side msg).1.listener other).ref = (s.listener other).ref :=
      (s.listener_replace_other distinct _ changed.grown).1
    rw [kept, r.shared other]
    simp [Listening.accept, distinct]

/-- A list of one's own stays one's own. -/
theorem apart_accept (finished : (v.accept side msg).1.finished other = true)
    : ((s.acceptMessage side msg).1.listener other).ref
      ≠ ((s.acceptMessage side msg).1.listener !other).ref := by
  obtain ⟨changed, -⟩ := (s.listener side).accept_heap msg
  have same : (s.acceptMessage side msg).1.listener side
      = ((s.listener side).acceptMessage msg).1 := s.listener_replace_same side _ changed.grown
  have others : ∀ one ≠ side, ((s.acceptMessage side msg).1.listener one).ref
      = (s.listener one).ref := by
    intro one distinct
    exact (s.listener_replace_other distinct _ changed.grown).1
  have away : (v.alone side).Completes msg → ∀ one,
      ((s.listener side).acceptMessage msg).1.ref ≠ (s.listener one).ref := by
    intro completes one
    exact ((s.allocated one).trans_le (r.fresh completes)).ne'
  rcases eq_or_ne other side with rfl | distinct
  · rw [same, others (!other) (Bool.not_ne_self other)]
    by_cases completes : (v.alone other).Completes msg
    · exact away completes (!other)
    · rw [r.stays completes]
      exact r.apart other (by simpa [Listening.accept, completes] using finished)
  · obtain rfl : side = !other := Bool.eq_not.mpr distinct.symm
    rw [same, others other distinct]
    by_cases completes : (v.alone !other).Completes msg
    · exact (away completes other).symm
    · rw [r.stays completes]
      exact r.apart other (by simpa [Listening.accept] using finished)

end Accept

/-- A message keeps the representation, and the listeners make the calls of their values. -/
theorem step (r : Represents s v) (side : Bool) (msg : PictureMessage)
    : Represents (s.acceptMessage side msg).1 (v.accept side msg).1
      ∧ (s.acceptMessage side msg).2 = (v.accept side msg).2 := by
  have accepted := (s.listener side).accept_values msg
  rw [r.values side] at accepted
  refine ⟨⟨r.classData_accept side msg, fun other => ?_, fun other => ?_, fun other => ?_⟩, ?_⟩
  · exact r.values_accept side other msg
  · exact r.shared_accept side other msg
  · exact r.apart_accept side other msg
  · exact congrArg (List.map (side, ·)) (congrArg Prod.snd accepted).symm

end Represents

/-- Two instances write what their values write, by induction on the messages. -/
theorem listeners_outputs (messages : List (Bool × PictureMessage))
    : listeners.outputs {} messages = listening.outputs {} messages := by
  have general : ∀ s v, Represents s v
      → listeners.outputs s messages = listening.outputs v messages := by
    induction messages with
    | nil => exact fun _ _ _ => rfl
    | cons message rest ih =>
        intro s v r
        obtain ⟨next, written⟩ := r.step message.1 message.2
        exact congrArg₂ (· ++ ·) written (ih _ _ next)
  exact general {} {} represents_start

-----------------------------------------------------------------------------------------
-- Independence
-----------------------------------------------------------------------------------------

/-- If a listener that has written no picture gets the last packet of one, then the bytes in the list
of the class and those that the listener has got itself are the same within the announced size.
-/
def OwnFirst (v : Listening) (message : Bool × PictureMessage) : Prop :=
  v.finished message.1 = false → (v.alone message.1).Completes message.2
    → (v.classData ++ message.2.data).take (v.alone message.1).totalSize
      = ((v.alone message.1).wholeData ++ message.2.data).take (v.alone message.1).totalSize

instance (v : Listening) (message : Bool × PictureMessage) : Decidable (OwnFirst v message) :=
  inferInstanceAs (Decidable (_ → _ → _))

/-- What a packet writes. -/
theorem PictureBuffer.accept_files (b : PictureBuffer) (msg : PictureMessage)
    : (b.accept msg).2
      = if b.Completes msg then [(b.wholeData ++ msg.data).take b.totalSize] else [] := by
  cases msg with
  | dataTransmissionHandshake msg => simp [accept]
  | encapsulatedData msg =>
      by_cases last : (msg.seqnr.toNat : ℤ) = b.dataPacketsCount - 1
      · simp [accept, last, PictureMessage.data]
      · simp [accept, last]

/-- A listener writes as many files as it would write alone, and the same ones as long as the first
is its own.
-/
theorem Listening.joint_files (v : Listening) (side : Bool) (msg : PictureMessage)
    : ((v.joint side).accept msg).2.length = ((v.alone side).accept msg).2.length
      ∧ (((v.joint side).accept msg).2 = ((v.alone side).accept msg).2
        ↔ OwnFirst v (side, msg)) := by
  rw [PictureBuffer.accept_files, PictureBuffer.accept_files]
  by_cases completes : (v.alone side).Completes msg
  · rw [if_pos completes, if_pos (completes_joint.mpr completes)]
    refine ⟨rfl, ?_⟩
    cases done : v.finished side with
    | true => simp [joint, done, OwnFirst]
    | false => simp [joint, done, OwnFirst, completes]
  · rw [if_neg completes, if_neg (mt completes_joint.mp completes)]
    exact ⟨rfl, iff_of_true rfl fun _ completing => absurd completing completes⟩

theorem onSide_append {α : Type} (side : Bool) (first second : List (Bool × α))
    : onSide side (first ++ second) = onSide side first ++ onSide side second :=
  List.filterMap_append

theorem onSide_map {α : Type} (side other : Bool) (entries : List α)
    : onSide side (entries.map (other, ·)) = if other = side then entries else [] := by
  rw [onSide, List.filterMap_map]
  by_cases same : other = side
  · simp [same]
  · simp [same]

/-- From any state on, both sides write what they would write alone exactly if their first files are
their own; by induction on the messages.
-/
theorem listening_iff (messages : List (Bool × PictureMessage)) (v : Listening)
    : (∀ side, onSide side (listening.outputs v messages)
        = pictureBuffer.outputs (v.alone side) (onSide side messages))
      ↔ listening.Meets OwnFirst v messages := by
  induction messages generalizing v with
  | nil => exact iff_of_true (fun _ => rfl) trivial
  | cons message rest ih =>
      obtain ⟨own, msg⟩ := message
      obtain ⟨count, files⟩ := v.joint_files own msg
      have written : ∀ side, onSide side (listening.outputs v ((own, msg) :: rest))
          = (if own = side then ((v.joint own).accept msg).2 else [])
            ++ onSide side (listening.outputs (v.accept own msg).1 rest) := by
        intro side
        rw [Mealy.outputs, onSide_append]
        exact congrArg (· ++ _) (onSide_map side own _)
      have alone : ∀ side, pictureBuffer.outputs (v.alone side) (onSide side ((own, msg) :: rest))
          = (if own = side then ((v.alone own).accept msg).2 else [])
            ++ pictureBuffer.outputs ((v.accept own msg).1.alone side) (onSide side rest) := by
        intro side
        rcases eq_or_ne own side with rfl | distinct
        · simp [onSide, Listening.accept, Mealy.outputs, pictureBuffer]
        · simp [onSide, Listening.accept, distinct, distinct.symm]
      have split : ∀ side, (onSide side (listening.outputs v ((own, msg) :: rest))
            = pictureBuffer.outputs (v.alone side) (onSide side ((own, msg) :: rest)))
          ↔ (own = side → OwnFirst v (own, msg))
            ∧ onSide side (listening.outputs (v.accept own msg).1 rest)
              = pictureBuffer.outputs ((v.accept own msg).1.alone side) (onSide side rest) := by
        intro side
        rw [written side, alone side]
        by_cases same : own = side
        · rw [if_pos same, if_pos same, ← files]
          exact ⟨fun both => ⟨fun _ => (List.append_inj both count).1, (List.append_inj both count).2⟩,
            fun both => congrArg₂ (· ++ ·) (both.1 same) both.2⟩
        · simp [same]
      simp only [split, forall_and, forall_eq']
      exact and_congr_right fun _ => ih (v.accept own msg).1

/-- Each of two instances writes what it would write alone exactly if their first files are their
own.
-/
theorem instances_independent_iff (messages : List (Bool × PictureMessage))
    : (∀ side, onSide side (listeners.outputs {} messages)
        = pictureListener.outputs {} (onSide side messages))
      ↔ listening.Meets OwnFirst {} messages := by
  rw [← listening_iff, listeners_outputs]
  exact forall_congr' fun side => by rw [pictureListener_outputs]

/-- Two listeners get a picture of one byte each, one after the other. -/
theorem second_instance_mixed
    : ¬ ∀ (messages : List (Bool × PictureMessage)) (side : Bool),
        onSide side (listeners.outputs {} messages)
          = pictureListener.outputs {} (onSide side messages) := by
  intro independent
  have second := independent
    [(false, .dataTransmissionHandshake ⟨0, 1, 1, 1, 1, 253, 100⟩), (false, .encapsulatedData ⟨0, [7]⟩),
      (true, .dataTransmissionHandshake ⟨0, 1, 1, 1, 1, 253, 100⟩), (true, .encapsulatedData ⟨0, [8]⟩)]
    true
  rw [listeners_outputs, pictureListener_outputs] at second
  exact absurd second (by decide)

end Granum.Payload
