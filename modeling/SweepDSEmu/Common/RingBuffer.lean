import Mathlib.Algebra.Group.Nat.Defs
import Mathlib.Logic.Relation
import Mathlib.Tactic.Common

/-!
# Ring buffers

`Common::RingBuffer` with one producer and one consumer.  A step is one access to an index, or one element that is
copied; those of the producer and of the consumer follow one another in any order.  The two indices are never reset and
wrap around at `2 ^ 64`, which the capacity divides.
-/

namespace SweepDSEmu.RingBuffer

/-- The arguments of the template, with what is asserted of them. -/
structure Shape where
  capacity : Nat
  granularity : Nat
  small : capacity < (2 ^ 64 - 1) / 2 / granularity
  powerOfTwo : ∃ e, capacity = 2 ^ e

variable {T : Type}

/-- Between the accesses of `Push`. -/
inductive Producer (T : Type) where
  | idle
  /-- The write index is loaded. -/
  | loaded (input : List T) (slotCount writeIndex : UInt64)
  /-- Both indices are loaded, and the first elements are copied. -/
  | copying (input : List T) (writeIndex pushCount : UInt64) (copied : Nat)

/-- Between the accesses of `Pop`. -/
inductive Consumer (T : Type) where
  | idle
  | loaded (maxSlots readIndex : UInt64)
  | copying (readIndex popCount : UInt64) (output : List T)

structure State (T : Type) where
  readIndex : UInt64
  writeIndex : UInt64
  data : Nat → T
  producer : Producer T
  consumer : Consumer T
  /-- The elements of all slots that `Push` has accepted. -/
  accepted : List T
  /-- The elements of all slots that were popped. -/
  popped : List T

def State.initial (data : Nat → T) : State T where
  readIndex := 0
  writeIndex := 0
  data := data
  producer := .idle
  consumer := .idle
  accepted := []
  popped := []

def State.size (s : State T) : UInt64 := s.writeIndex - s.readIndex

/-- `std::min` -/
def stdMin (a b : UInt64) : UInt64 := if b < a then b else a

namespace Shape

variable (shape : Shape)

/-- The number of elements of the array. -/
def elements : Nat := shape.capacity * shape.granularity

/-- Where an element of a copy of `count` slots is in the array: the copy starts at the slot of the index, and its
second part at the start of the array. -/
def place (index count : UInt64) (k : Nat) : Nat :=
  let pos := index % UInt64.ofNat shape.capacity
  let firstCopy := stdMin (UInt64.ofNat shape.capacity - pos) count
  if k < firstCopy.toNat * shape.granularity then pos.toNat * shape.granularity + k
  else k - firstCopy.toNat * shape.granularity

inductive Step (s : State T) : State T → Prop where
  | push (input : List T) (slotCount : UInt64) (hidle : s.producer = .idle)
      (hinput : slotCount.toNat * shape.granularity ≤ input.length) :
      Step s { s with producer := .loaded input slotCount s.writeIndex }
  | loadReadIndex {input : List T} {slotCount writeIndex : UInt64}
      (hloaded : s.producer = .loaded input slotCount writeIndex) :
      Step s
        { s with
          producer := .copying input writeIndex
            (stdMin slotCount (UInt64.ofNat shape.capacity + s.readIndex - writeIndex)) 0 }
  | copyIn {input : List T} {writeIndex pushCount : UInt64} {copied : Nat} {x : T}
      (hcopying : s.producer = .copying input writeIndex pushCount copied)
      (hmore : copied < pushCount.toNat * shape.granularity) (hx : input[copied]? = some x) :
      Step s
        { s with
          data := Function.update s.data (shape.place writeIndex pushCount copied) x
          producer := .copying input writeIndex pushCount (copied + 1) }
  | storeWriteIndex {input : List T} {writeIndex pushCount : UInt64} {copied : Nat}
      (hcopying : s.producer = .copying input writeIndex pushCount copied)
      (hdone : copied = pushCount.toNat * shape.granularity) :
      Step s
        { s with
          writeIndex := writeIndex + pushCount
          producer := .idle
          accepted := s.accepted ++ input.take copied }
  | pop (maxSlots : UInt64) (hidle : s.consumer = .idle) :
      Step s { s with consumer := .loaded maxSlots s.readIndex }
  | loadWriteIndex {maxSlots readIndex : UInt64} (hloaded : s.consumer = .loaded maxSlots readIndex) :
      Step s { s with consumer := .copying readIndex (stdMin (s.writeIndex - readIndex) maxSlots) [] }
  | copyOut {readIndex popCount : UInt64} {output : List T}
      (hcopying : s.consumer = .copying readIndex popCount output)
      (hmore : output.length < popCount.toNat * shape.granularity) :
      Step s
        { s with
          consumer := .copying readIndex popCount
            (output ++ [s.data (shape.place readIndex popCount output.length)]) }
  | storeReadIndex {readIndex popCount : UInt64} {output : List T}
      (hcopying : s.consumer = .copying readIndex popCount output)
      (hdone : output.length = popCount.toNat * shape.granularity) :
      Step s
        { s with
          readIndex := readIndex + popCount
          consumer := .idle
          popped := s.popped ++ output }

/-- The element that `Push` copies next. -/
def WritesAt (s : State T) (i : Nat) : Prop :=
  ∃ input writeIndex pushCount copied, s.producer = .copying input writeIndex pushCount copied ∧
    copied < pushCount.toNat * shape.granularity ∧ i = shape.place writeIndex pushCount copied

/-- The element that `Pop` copies next. -/
def ReadsAt (s : State T) (i : Nat) : Prop :=
  ∃ readIndex popCount output, s.consumer = .copying readIndex popCount output ∧
    output.length < popCount.toNat * shape.granularity ∧ i = shape.place readIndex popCount output.length

/-- A bounded queue: what is popped was accepted before, in the same order, no slot that is still held is written, and
both sides access elements of the array only. -/
structure IsBoundedFifo (s : State T) : Prop where
  fifo : s.popped <+: s.accepted
  held : s.accepted.length = s.popped.length + s.size.toNat * shape.granularity
  bounded : s.size.toNat ≤ shape.capacity
  kept : ∀ j, s.popped.length ≤ j → j < s.accepted.length → s.accepted[j]? = some (s.data (j % shape.elements))
  spared : ∀ i, shape.WritesAt s i →
    i < shape.elements ∧ ∀ j, s.popped.length ≤ j → j < s.accepted.length → j % shape.elements ≠ i
  read : ∀ i, shape.ReadsAt s i → i < shape.elements

theorem granularity_pos : 0 < shape.granularity := by
  have hsmall := shape.small
  by_contra hzero
  rw [Nat.eq_zero_of_not_pos hzero, Nat.div_zero] at hsmall
  omega

theorem capacity_pos : 0 < shape.capacity := by
  obtain ⟨e, he⟩ := shape.powerOfTwo
  rw [he]
  exact Nat.two_pow_pos e

theorem capacity_lt : shape.capacity < 2 ^ 63 := by
  have hsmall := shape.small
  have hle := Nat.div_le_self ((2 ^ 64 - 1) / 2) shape.granularity
  omega

theorem capacity_dvd : shape.capacity ∣ 2 ^ 64 := by
  have hlt := shape.capacity_lt
  obtain ⟨e, he⟩ := shape.powerOfTwo
  rw [he] at hlt ⊢
  exact Nat.pow_dvd_pow 2 (Nat.le_of_lt (Nat.lt_trans ((Nat.pow_lt_pow_iff_right (by omega)).mp hlt) (by omega)))

end Shape

theorem toNat_stdMin (a b : UInt64) : (stdMin a b).toNat = min a.toNat b.toNat := by
  unfold stdMin
  split
  · rename_i hlt
    rw [UInt64.lt_iff_toNat_lt] at hlt
    omega
  · rename_i hle
    rw [UInt64.lt_iff_toNat_lt] at hle
    omega

/-- A difference of two indices is exact when it fits, wherever they have wrapped around. -/
theorem toNat_ofNat_sub {a b : Nat} (hle : b ≤ a) (hfits : a - b < 2 ^ 64) :
    (UInt64.ofNat a - UInt64.ofNat b).toNat = a - b := by
  obtain ⟨d, rfl⟩ := Nat.exists_eq_add_of_le hle
  rw [UInt64.ofNat_add, UInt64.add_comm, UInt64.add_sub_cancel, UInt64.toNat_ofNat', Nat.add_sub_cancel_left]
  exact Nat.mod_eq_of_lt (by omega)

namespace Shape

variable {shape : Shape}

theorem place_eq {n k : Nat} {count : UInt64} (hcount : count.toNat ≤ shape.capacity)
    (hk : k < count.toNat * shape.granularity) :
    shape.place (UInt64.ofNat n) count k = (n * shape.granularity + k) % shape.elements := by
  have hcapacity := shape.capacity_lt
  have hpos : (UInt64.ofNat n % UInt64.ofNat shape.capacity).toNat = n % shape.capacity := by
    rw [UInt64.toNat_mod, UInt64.toNat_ofNat', UInt64.toNat_ofNat', Nat.mod_eq_of_lt (by omega : shape.capacity < 2 ^ 64),
      Nat.mod_mod_of_dvd n shape.capacity_dvd]
  have hlt : n % shape.capacity < shape.capacity := Nat.mod_lt n shape.capacity_pos
  have hrest : (UInt64.ofNat shape.capacity - UInt64.ofNat n % UInt64.ofNat shape.capacity).toNat =
      shape.capacity - n % shape.capacity := by
    rw [← UInt64.ofNat_toNat (x := UInt64.ofNat n % UInt64.ofNat shape.capacity), hpos]
    exact toNat_ofNat_sub (Nat.le_of_lt hlt) (by omega)
  have hstream : n * shape.granularity =
      shape.elements * (n / shape.capacity) + n % shape.capacity * shape.granularity := by
    calc n * shape.granularity
        = (shape.capacity * (n / shape.capacity) + n % shape.capacity) * shape.granularity := by rw [Nat.div_add_mod]
      _ = shape.elements * (n / shape.capacity) + n % shape.capacity * shape.granularity := by
        rw [Nat.add_mul, Nat.mul_right_comm]
        rfl
  unfold place
  dsimp only
  rw [toNat_stdMin, hrest, hpos, hstream, Nat.add_assoc, Nat.mul_add_mod]
  generalize n % shape.capacity = pos at hlt ⊢
  have hend : (shape.capacity - pos) * shape.granularity = shape.elements - pos * shape.granularity := Nat.sub_mul ..
  have hinside : pos * shape.granularity < shape.elements := Nat.mul_lt_mul_of_pos_right hlt shape.granularity_pos
  have hwhole : count.toNat * shape.granularity ≤ shape.elements := Nat.mul_le_mul_right _ hcount
  by_cases hfirst : k < (shape.capacity - pos) * shape.granularity
  · rw [if_pos, Nat.mod_eq_of_lt (by omega)]
    rcases Nat.le_total (shape.capacity - pos) count.toNat with h | h
    · rwa [Nat.min_eq_left h]
    · rwa [Nat.min_eq_right h]
  · have hle : shape.capacity - pos ≤ count.toNat := by
      by_contra hgt
      exact hfirst (Nat.lt_of_lt_of_le hk (Nat.mul_le_mul_right _ (by omega)))
    rw [Nat.min_eq_left hle, if_neg hfirst, hend, Nat.mod_eq_sub_mod (by omega), Nat.mod_eq_of_lt (by omega)]
    omega

theorem mod_ne {i j : Nat} (hlt : i < j) (hnear : j < i + shape.elements) : i % shape.elements ≠ j % shape.elements := by
  intro heq
  have hzero := Nat.sub_mod_eq_zero_of_mod_eq heq.symm
  rw [Nat.mod_eq_of_lt (by omega)] at hzero
  omega

end Shape

/-- The producer's indices are `w` and what it has copied is in the slots behind; there is room for all of them. -/
def ProducerHolds (shape : Shape) (s : State T) (w r : Nat) : Prop :=
  match s.producer with
  | .idle => True
  | .loaded input slotCount writeIndex =>
    writeIndex = UInt64.ofNat w ∧ slotCount.toNat * shape.granularity ≤ input.length
  | .copying input writeIndex pushCount copied =>
    writeIndex = UInt64.ofNat w ∧ w + pushCount.toNat ≤ r + shape.capacity ∧
      pushCount.toNat * shape.granularity ≤ input.length ∧ copied ≤ pushCount.toNat * shape.granularity ∧
      ∀ k < copied, input[k]? = some (s.data ((w * shape.granularity + k) % shape.elements))

/-- The consumer's index is `r`, the slots that it copies are held, and it has copied the first elements of them. -/
def ConsumerHolds (shape : Shape) (s : State T) (w r : Nat) : Prop :=
  match s.consumer with
  | .idle => True
  | .loaded _ readIndex => readIndex = UInt64.ofNat r
  | .copying readIndex popCount output =>
    readIndex = UInt64.ofNat r ∧ r + popCount.toNat ≤ w ∧ output.length ≤ popCount.toNat * shape.granularity ∧
      output = (s.accepted.drop (r * shape.granularity)).take output.length

/-- `w` slots were accepted and `r` popped. -/
structure Holds (shape : Shape) (s : State T) (w r : Nat) : Prop where
  le : r ≤ w
  fits : w ≤ r + shape.capacity
  writeIndex : s.writeIndex = UInt64.ofNat w
  readIndex : s.readIndex = UInt64.ofNat r
  accepted : s.accepted.length = w * shape.granularity
  popped : s.popped = s.accepted.take (r * shape.granularity)
  kept : ∀ j, r * shape.granularity ≤ j → j < w * shape.granularity →
    s.accepted[j]? = some (s.data (j % shape.elements))
  producer : ProducerHolds shape s w r
  consumer : ConsumerHolds shape s w r

variable {shape : Shape} {s t : State T} {w r : Nat}

theorem Holds.length_popped (h : Holds shape s w r) : s.popped.length = r * shape.granularity := by
  have hle := Nat.mul_le_mul_right shape.granularity h.le
  rw [h.popped, List.length_take, h.accepted]
  omega

theorem Holds.toNat_size (h : Holds shape s w r) : s.size.toNat = w - r := by
  have hcapacity := shape.capacity_lt
  have hfits := h.fits
  rw [State.size, h.writeIndex, h.readIndex]
  exact toNat_ofNat_sub h.le (by omega)

private theorem elements_of_le {a b : Nat} (h : a ≤ b + shape.capacity) :
    a * shape.granularity ≤ b * shape.granularity + shape.elements := by
  have hmul := Nat.mul_le_mul_right shape.granularity h
  rwa [Nat.add_mul] at hmul

/-- The place that is written is not one of a slot that is held. -/
theorem Holds.spared (h : Holds shape s w r) {input : List T} {writeIndex pushCount : UInt64} {copied : Nat}
    (hcopying : s.producer = .copying input writeIndex pushCount copied)
    (hmore : copied < pushCount.toNat * shape.granularity) :
    shape.place writeIndex pushCount copied = (w * shape.granularity + copied) % shape.elements ∧
      ∀ j, r * shape.granularity ≤ j → j < w * shape.granularity + copied →
        j % shape.elements ≠ (w * shape.granularity + copied) % shape.elements := by
  have hproducer := h.producer
  rw [ProducerHolds, hcopying] at hproducer
  obtain ⟨rfl, hroom, -, -, -⟩ := hproducer
  have hle := h.le
  have hend := elements_of_le hroom
  rw [Nat.add_mul] at hend
  refine ⟨Shape.place_eq (by omega) hmore, ?_⟩
  intro j hj hlt
  exact Shape.mod_ne hlt (by omega)

theorem step_holds (hstep : shape.Step s t) (h : Holds shape s w r) : ∃ w' r', Holds shape t w' r' := by
  have hproducer := h.producer
  have hconsumer := h.consumer
  unfold ProducerHolds at hproducer
  unfold ConsumerHolds at hconsumer
  have hcapacity := shape.capacity_lt
  cases hstep with
  | push input slotCount hidle hinput =>
    exact ⟨w, r, { h with producer := ⟨h.writeIndex, hinput⟩ }⟩
  | @loadReadIndex input slotCount writeIndex hloaded =>
    rw [hloaded] at hproducer
    obtain ⟨rfl, hinput⟩ := hproducer
    have hfree : (UInt64.ofNat shape.capacity + s.readIndex - UInt64.ofNat w).toNat = shape.capacity + r - w := by
      have hle := h.le
      have hfits := h.fits
      rw [h.readIndex, ← UInt64.ofNat_add]
      exact toNat_ofNat_sub (by omega) (by omega)
    have hcount := toNat_stdMin slotCount (UInt64.ofNat shape.capacity + s.readIndex - UInt64.ofNat w)
    refine ⟨w, r, { h with producer := ⟨rfl, ?_, ?_, Nat.zero_le _, fun k hk => absurd hk (Nat.not_lt_zero k)⟩ }⟩
    · have hfits := h.fits
      omega
    · refine Nat.le_trans (Nat.mul_le_mul_right _ ?_) hinput
      omega
  | @copyIn input writeIndex pushCount copied x hcopying hmore hx =>
    obtain ⟨hplace, hspared⟩ := h.spared hcopying hmore
    rw [hcopying] at hproducer
    obtain ⟨hwrite, hroom, hinput, hle, hcopied⟩ := hproducer
    have hheld := Nat.mul_le_mul_right shape.granularity h.le
    refine ⟨w, r, { h with kept := ?_, producer := ⟨hwrite, hroom, hinput, hmore, ?_⟩ }⟩
    · intro j hj hlt
      dsimp only
      rw [hplace, Function.update_of_ne (hspared j hj (by omega))]
      exact h.kept j hj hlt
    · intro k hk
      dsimp only
      rw [hplace]
      rcases Nat.lt_succ_iff_lt_or_eq.mp hk with hlt | rfl
      · rw [Function.update_of_ne (hspared _ (by omega) (by omega))]
        exact hcopied k hlt
      · rw [Function.update_self, hx]
  | @storeWriteIndex input writeIndex pushCount copied hcopying hdone =>
    rw [hcopying] at hproducer
    obtain ⟨rfl, hroom, hinput, hle, hcopied⟩ := hproducer
    have hheld := Nat.mul_le_mul_right shape.granularity h.le
    have hgranularity := Nat.add_mul w pushCount.toNat shape.granularity
    refine ⟨w + pushCount.toNat, r, ?_⟩
    refine
      { le := Nat.le_add_right_of_le h.le
        fits := hroom
        writeIndex := ?_
        readIndex := h.readIndex
        accepted := ?_
        popped := ?_
        kept := ?_
        producer := trivial
        consumer := ?_ }
    · rw [UInt64.ofNat_add, UInt64.ofNat_toNat]
    · rw [List.length_append, List.length_take, h.accepted]
      omega
    · rw [h.popped, List.take_append_of_le_length (by rw [h.accepted]; exact hheld)]
    · intro j hj hlt
      rcases Nat.lt_or_ge j (w * shape.granularity) with hold | hnew
      · rw [List.getElem?_append_left (by rw [h.accepted]; exact hold)]
        exact h.kept j hj hold
      · have hk := hcopied (j - w * shape.granularity) (by omega)
        rw [List.getElem?_append_right (by rw [h.accepted]; exact hnew), h.accepted,
          List.getElem?_take_of_lt (by omega), hk, Nat.add_sub_cancel' hnew]
    · cases hpop : s.consumer with
      | idle => trivial
      | loaded maxSlots readIndex =>
        rw [hpop] at hconsumer
        exact hconsumer
      | copying readIndex popCount output =>
        rw [hpop] at hconsumer
        obtain ⟨hread, hheld', hlength, houtput⟩ := hconsumer
        refine ⟨hread, Nat.le_add_right_of_le hheld', hlength, ?_⟩
        have hend := Nat.mul_le_mul_right shape.granularity hheld'
        rw [Nat.add_mul] at hend
        rw [List.drop_append_of_le_length (by rw [h.accepted]; exact hheld),
          List.take_append_of_le_length (by rw [List.length_drop, h.accepted]; omega)]
        exact houtput
  | pop maxSlots hidle => exact ⟨w, r, { h with consumer := h.readIndex }⟩
  | @loadWriteIndex maxSlots readIndex hloaded =>
    rw [hloaded] at hconsumer
    subst hconsumer
    have hfilled := h.toNat_size
    rw [State.size, h.readIndex] at hfilled
    have hcount := toNat_stdMin (s.writeIndex - UInt64.ofNat r) maxSlots
    refine ⟨w, r, { h with consumer := ⟨rfl, ?_, Nat.zero_le _, rfl⟩ }⟩
    have hle := h.le
    omega
  | @copyOut readIndex popCount output hcopying hmore =>
    rw [hcopying] at hconsumer
    obtain ⟨rfl, hheld, hlength, houtput⟩ := hconsumer
    have hend := Nat.mul_le_mul_right shape.granularity hheld
    rw [Nat.add_mul] at hend
    have hfits := h.fits
    have hplace := Shape.place_eq (n := r) (by omega) hmore
    have hkept := h.kept (r * shape.granularity + output.length) (Nat.le_add_right _ _) (by omega)
    refine ⟨w, r, { h with consumer := ⟨rfl, hheld, ?_, ?_⟩ }⟩
    · rw [List.length_append]
      exact hmore
    · rw [hplace, List.length_append, List.length_singleton, List.take_add_one, ← houtput, List.getElem?_drop, hkept]
      rfl
  | @storeReadIndex readIndex popCount output hcopying hdone =>
    rw [hcopying] at hconsumer
    obtain ⟨rfl, hheld, hlength, houtput⟩ := hconsumer
    have hgranularity := Nat.add_mul r popCount.toNat shape.granularity
    refine ⟨w, r + popCount.toNat, ?_⟩
    refine
      { le := hheld
        fits := by
          have hfits := h.fits
          omega
        writeIndex := h.writeIndex
        readIndex := ?_
        accepted := h.accepted
        popped := ?_
        kept := fun j hj hlt => h.kept j (by omega) hlt
        producer := ?_
        consumer := trivial }
    · rw [UInt64.ofNat_add, UInt64.ofNat_toNat]
    · rw [h.popped, houtput, hdone, hgranularity, List.take_add]
    · cases hpush : s.producer with
      | idle => trivial
      | loaded input slotCount writeIndex =>
        rw [hpush] at hproducer
        exact hproducer
      | copying input writeIndex pushCount copied =>
        rw [hpush] at hproducer
        obtain ⟨hwrite, hroom, hrest⟩ := hproducer
        exact ⟨hwrite, by omega, hrest⟩

theorem Holds.isBoundedFifo (h : Holds shape s w r) : shape.IsBoundedFifo s := by
  have hle := h.le
  have hfits := h.fits
  have hheld := Nat.mul_le_mul_right shape.granularity hle
  refine
    { fifo := ?_
      held := ?_
      bounded := ?_
      kept := ?_
      spared := ?_
      read := ?_ }
  · rw [h.popped]
    exact List.take_prefix _ _
  · rw [h.toNat_size, h.length_popped, h.accepted, Nat.sub_mul]
    omega
  · rw [h.toNat_size]
    omega
  · rw [h.length_popped, h.accepted]
    exact h.kept
  · rintro i ⟨input, writeIndex, pushCount, copied, hcopying, hmore, rfl⟩
    obtain ⟨hplace, hspared⟩ := h.spared hcopying hmore
    rw [hplace, h.length_popped, h.accepted]
    refine ⟨Nat.mod_lt _ (Nat.mul_pos shape.capacity_pos shape.granularity_pos), ?_⟩
    intro j hj hlt
    exact hspared j hj (by omega)
  · rintro i ⟨readIndex, popCount, output, hcopying, hmore, rfl⟩
    have hconsumer := h.consumer
    rw [ConsumerHolds, hcopying] at hconsumer
    obtain ⟨rfl, hheld', -⟩ := hconsumer
    rw [Shape.place_eq (by omega) hmore]
    exact Nat.mod_lt _ (Nat.mul_pos shape.capacity_pos shape.granularity_pos)

/-- Whatever the interleaving, the buffer is a bounded queue in every state of a run. -/
theorem run_isBoundedFifo (shape : Shape) (data : Nat → T) (s : State T)
    (hrun : Relation.ReflTransGen shape.Step (State.initial data) s) : shape.IsBoundedFifo s := by
  have hholds : ∃ w r, Holds shape s w r := by
    induction hrun with
    | refl =>
      refine ⟨0, 0, ?_⟩
      exact
        { le := Nat.le_refl 0
          fits := Nat.zero_le _
          writeIndex := rfl
          readIndex := rfl
          accepted := (Nat.zero_mul _).symm
          popped := List.take_nil.symm
          kept := fun j _ hlt => absurd hlt (by rw [Nat.zero_mul]; exact Nat.not_lt_zero j)
          producer := trivial
          consumer := trivial }
    | tail _ hstep ih =>
      obtain ⟨w, r, h⟩ := ih
      exact step_holds hstep h
  obtain ⟨w, r, h⟩ := hholds
  exact h.isBoundedFifo

def twoSlots : Shape where
  capacity := 2
  granularity := 1
  small := by decide
  powerOfTwo := ⟨1, rfl⟩

/-- One slot is pushed. -/
theorem run_isBoundedFifo_push : ∃ s : State Nat, s.accepted = [5] ∧ twoSlots.IsBoundedFifo s :=
  ⟨_, rfl, run_isBoundedFifo twoSlots (fun _ => 0) _
    ((((Relation.ReflTransGen.refl.tail (.push [5] 1 rfl (by decide))).tail (.loadReadIndex rfl)).tail
      (.copyIn rfl (by decide) rfl)).tail (.storeWriteIndex rfl (by decide)))⟩

end SweepDSEmu.RingBuffer
