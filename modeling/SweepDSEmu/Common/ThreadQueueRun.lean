import SweepDSEmu.Lib.ThreadQueueList

/-!
# Runs of a list of thread queues

The operations of `Common::ThreadQueueList` one after the other, among them that the list is saved and loaded.
`ThreadQueueList.performs_refines` compares them with an array of queues, in which there is no chain.
-/

namespace SweepDSEmu.ThreadQueueList

variable {T : Type} {numQueues : Nat} {q : ThreadQueueList T}

def rotate (q : ThreadQueueList T) (priority : Nat) : ThreadQueueList T :=
  match q.data priority with
  | first :: second :: rest => { q with data := Function.update q.data priority (second :: rest ++ [first]) }
  | _ => q

def toIndex : Option (Option Nat) → Int
  | some none => -2
  | none => -1
  | some (some i) => i

def toPointer (idx : Int) : Option (Option Nat) :=
  if idx = -1 then none else if idx < 0 then some none else some (some idx.toNat)

/-- What `save` writes. -/
structure Archive (T : Type) where
  first : Int
  levels : Nat → Int × List T

def save (q : ThreadQueueList T) : Archive T where
  first := toIndex (some q.first)
  levels := fun i => (toIndex (q.nextNonempty i), q.data i)

/-- The tag of an unlinked level is never saved for `first`. -/
def load (ar : Archive T) : ThreadQueueList T where
  first := (toPointer ar.first).join
  nextNonempty := fun i => toPointer (ar.levels i).1
  data := fun i => (ar.levels i).2

inductive Operation (T : Type) where
  | prepare (priority : Nat)
  | pushFront (priority : Nat) (threadId : T)
  | pushBack (priority : Nat) (threadId : T)
  | move (threadId : T) (oldPriority newPriority : Nat)
  | remove (priority : Nat) (threadId : T)
  | rotate (priority : Nat)
  | popFirst
  | popFirstBetter (priority : Nat)
  /-- The list is saved and loaded into another one. -/
  | saveLoad

section Runs

variable [DecidableEq T]

/-- `none` is a link that leads nowhere, and a result without an element is `{Priority(), T()}`. -/
def perform (numQueues : Nat) (q : ThreadQueueList T) :
    Operation T → Option (Option (Nat × T) × ThreadQueueList T)
  | .prepare priority => some (none, q.prepare priority)
  | .pushFront priority threadId => some (none, q.pushFront priority threadId)
  | .pushBack priority threadId => some (none, q.pushBack priority threadId)
  | .move threadId oldPriority newPriority => some (none, q.move threadId oldPriority newPriority)
  | .remove priority threadId => some (none, q.remove priority threadId)
  | .rotate priority => some (none, q.rotate priority)
  | .popFirst => q.popFirst numQueues
  | .popFirstBetter priority => q.popFirstBetter numQueues priority
  | .saveLoad => some (none, load q.save)

def performs (numQueues : Nat) :
    List (Operation T) → ThreadQueueList T → Option (List (Option (Nat × T)) × ThreadQueueList T)
  | [], q => some ([], q)
  | op :: ops, q => do
    let (result, q) ← q.perform numQueues op
    let (results, q) ← performs numQueues ops q
    some (result :: results, q)

end Runs

/-- A queue for each level. -/
abbrev Fifos (T : Type) := Nat → List T

namespace Fifos

/-- Takes the front of the lowest level below `stop` that is not empty. -/
def popBelow (fifos : Fifos T) (stop : Nat) : Option (Nat × T) × Fifos T :=
  match (List.range stop).find? fun i => !(fifos i).isEmpty with
  | none => (none, fifos)
  | some i => ((fifos i).head?.map fun threadId => (i, threadId), Function.update fifos i (fifos i).tail)

variable [DecidableEq T]

def perform (numQueues : Nat) (fifos : Fifos T) : Operation T → Option (Nat × T) × Fifos T
  | .prepare _ => (none, fifos)
  | .pushFront priority threadId => (none, Function.update fifos priority (threadId :: fifos priority))
  | .pushBack priority threadId => (none, Function.update fifos priority (fifos priority ++ [threadId]))
  | .move threadId oldPriority newPriority =>
    let removed := Function.update fifos oldPriority ((fifos oldPriority).filter (· ≠ threadId))
    (none, Function.update removed newPriority (removed newPriority ++ [threadId]))
  | .remove priority threadId => (none, Function.update fifos priority ((fifos priority).filter (· ≠ threadId)))
  | .rotate priority => (none, Function.update fifos priority ((fifos priority).drop 1 ++ (fifos priority).take 1))
  | .popFirst => fifos.popBelow numQueues
  | .popFirstBetter priority => fifos.popBelow priority
  | .saveLoad => (none, fifos)

def performs (numQueues : Nat) : List (Operation T) → Fifos T → List (Option (Nat × T)) × Fifos T
  | [], fifos => ([], fifos)
  | op :: ops, fifos =>
    let (result, fifos) := fifos.perform numQueues op
    let (results, fifos) := performs numQueues ops fifos
    (result :: results, fifos)

end Fifos

namespace Operation

def prepares : Operation T → List Nat
  | .prepare priority => [priority]
  | .move _ _ newPriority => [newPriority]
  | _ => []

def priorities : Operation T → List Nat
  | .prepare priority => [priority]
  | .pushFront priority _ => [priority]
  | .pushBack priority _ => [priority]
  | .move _ oldPriority newPriority => [oldPriority, newPriority]
  | .remove priority _ => [priority]
  | .rotate priority => [priority]
  | .popFirstBetter priority => [priority]
  | _ => []

/-- What is pushed to, and what `pop_first_better` is called for, is a level that was prepared. -/
def Needs (prepared : List Nat) : Operation T → Prop
  | .pushFront priority _ => priority ∈ prepared
  | .pushBack priority _ => priority ∈ prepared
  | .popFirstBetter priority => priority ∈ prepared
  | _ => True

end Operation

def RunAdmitted (numQueues : Nat) : List Nat → List (Operation T) → Prop
  | _, [] => True
  | prepared, op :: ops =>
    (∀ p ∈ op.priorities, p < numQueues) ∧ op.Needs prepared ∧ RunAdmitted numQueues (op.prepares ++ prepared) ops

/-- The levels that were prepared in a run. -/
def preparedIn (ops : List (Operation T)) : List Nat := ops.flatMap Operation.prepares

/-- The links lead from a level through the levels of a list to the end. -/
def Lists (q : ThreadQueueList T) : Option Nat → List Nat → Prop
  | cur, [] => cur = none
  | cur, i :: levels => cur = some i ∧ ∃ next, q.nextNonempty i = some next ∧ q.Lists next levels

/-- The chain from `first` lists the linked levels in increasing order. -/
theorem WF.lists (h : WF numQueues q) : q.Lists q.first ((List.range numQueues).filter fun i => q.Linked i) := by
  have key : ∀ k lo cur, lo + k = numQueues → Least (fun j => lo ≤ j ∧ q.Linked j) cur →
      q.Lists cur ((List.range' lo k).filter fun i => q.Linked i) := by
    intro k
    induction k with
    | zero =>
      intro lo cur hlo hcur
      cases cur with
      | none => rfl
      | some i =>
        have := h.bound i hcur.1.2
        have := hcur.1.1
        omega
    | succ k ih =>
      intro lo cur hlo hcur
      by_cases hc : cur = some lo
      · subst hc
        cases hnext : q.nextNonempty lo with
        | none => exact absurd hnext hcur.1.2
        | some next =>
          rw [List.range'_succ, List.filter_cons_of_pos (by simpa using hcur.1.2)]
          exact ⟨rfl, next, hnext, ih (lo + 1) next (by omega) (h.next lo next hnext)⟩
      · obtain ⟨hnot, hleast⟩ := hcur.succ hc
        rw [List.range'_succ, List.filter_cons_of_neg (by simpa using hnot)]
        exact ih (lo + 1) cur (by omega) hleast
  rw [List.range_eq_range']
  exact key numQueues 0 q.first (Nat.zero_add _) (h.first.of_iff fun j => ⟨And.right, fun hj => ⟨Nat.zero_le j, hj⟩⟩)

/-- The links are as they should be, and only levels that were prepared have elements. -/
structure Holds (numQueues : Nat) (q : ThreadQueueList T) (prepared : List Nat) : Prop where
  wf : WF numQueues q
  filled : q.Filled
  linked : ∀ i, q.Linked i ↔ i ∈ prepared

variable {prepared : List Nat}

private theorem data_prepare (q : ThreadQueueList T) (priority : Nat) : (q.prepare priority).data = q.data := by
  unfold prepare link
  split
  · rfl
  · split <;> rfl

theorem Holds.prepare (h : Holds numQueues q prepared) {priority : Nat} (hlt : priority < numQueues) :
    Holds numQueues (q.prepare priority) (priority :: prepared) := by
  refine ⟨h.wf.prepare hlt, ?_, ?_⟩
  · intro p t ht
    rw [data_prepare] at ht
    exact (linked_prepare q priority p).mpr (.inr (h.filled p t ht))
  · intro i
    rw [linked_prepare, List.mem_cons, h.linked]

/-- A change of the elements of a level that was prepared, or one that adds none to an empty level. -/
theorem Holds.update (h : Holds numQueues q prepared) {priority : Nat} {queue : List T}
    (hqueue : queue ≠ [] → q.Linked priority) :
    Holds numQueues { q with data := Function.update q.data priority queue } prepared := by
  refine ⟨h.wf.congr rfl rfl, ?_, h.linked⟩
  intro p t ht
  by_cases hp : p = priority
  · subst hp
    refine hqueue ?_
    rintro rfl
    simp at ht
  · simp only [Function.update_of_ne hp] at ht
    exact h.filled p t ht

private theorem Holds.of_ne_nil (h : Holds numQueues q prepared) {priority : Nat} (hne : q.data priority ≠ []) :
    q.Linked priority := by
  obtain ⟨t, ht⟩ := List.exists_mem_of_ne_nil _ hne
  exact h.filled priority t ht

/-- The first element of some levels is the front of the first of them that is not empty. -/
private theorem head?_levels (ls : List Nat) :
    (q.levels ls).head? =
      (ls.find? fun i => !(q.data i).isEmpty).bind fun i => (q.data i).head?.map fun threadId => (i, threadId) := by
  induction ls with
  | nil => rfl
  | cons i ls ih =>
    rw [levels_cons]
    cases hdata : q.data i with
    | nil =>
      rw [List.find?_cons_of_neg (by simp [hdata]), ← ih]
      rfl
    | cons t ts =>
      simp [hdata]

private theorem Holds.popped (h : Holds numQueues q prepared) {stop : Nat} {found : Option (Nat × T)}
    (hfound : found = ((List.range stop).find? fun i => !(q.data i).isEmpty).bind fun i =>
      (q.data i).head?.map fun threadId => (i, threadId)) :
    Holds numQueues (q.popped found).2 prepared ∧
      ((q.popped found).1, (q.popped found).2.data) = Fifos.popBelow q.data stop := by
  unfold Fifos.popBelow
  cases hfind : (List.range stop).find? fun i => !(q.data i).isEmpty with
  | none =>
    rw [hfind] at hfound
    subst hfound
    exact ⟨h, rfl⟩
  | some i =>
    have hne : q.data i ≠ [] := by simpa using List.find?_some hfind
    obtain ⟨t, ts, hdata⟩ := List.exists_cons_of_ne_nil hne
    rw [hfind, Option.bind_some, hdata] at hfound
    subst hfound
    refine ⟨h.update fun _ => h.of_ne_nil hne, ?_⟩
    dsimp only
    simp [ThreadQueueList.popped, dropFront, hdata]

theorem Holds.popFirst (h : Holds numQueues q prepared) :
    ∃ r, q.popFirst numQueues = some r ∧ Holds numQueues r.2 prepared ∧ (r.1, r.2.data) = Fifos.popBelow q.data numQueues :=
  ⟨_, by rw [ThreadQueueList.popFirst, h.wf.seek_eq h.filled]; rfl, h.popped (head?_levels _)⟩

theorem Holds.popFirstBetter (h : Holds numQueues q prepared) {priority : Nat} (hpriority : q.Linked priority) :
    ∃ r, q.popFirstBetter numQueues priority = some r ∧ Holds numQueues r.2 prepared ∧
      (r.1, r.2.data) = Fifos.popBelow q.data priority := by
  refine ⟨_, by rw [ThreadQueueList.popFirstBetter, h.wf.seekBetter_eq h.filled hpriority]; rfl, h.popped ?_⟩
  have hsplit : List.range numQueues = List.range priority ++ List.range' priority (numQueues - priority) := by
    have hlt := h.wf.bound priority hpriority
    have happend := List.range'_append_1 (s := 0) (m := priority) (n := numQueues - priority)
    rw [Nat.zero_add, Nat.add_sub_cancel' hlt.le] at happend
    rw [List.range_eq_range', List.range_eq_range', happend]
  rw [toList, head?_levels, hsplit, List.find?_append]
  cases hbelow : (List.range priority).find? fun i => !(q.data i).isEmpty with
  | some i =>
    have hlt := List.mem_range.mp (List.mem_of_find?_eq_some hbelow)
    rw [Option.some_or, Option.bind_some]
    cases (q.data i).head? with
    | none => rfl
    | some t => simp [hlt]
  | none =>
    rw [Option.none_or, Option.bind_none, Option.filter_eq_none_iff]
    intro e he
    obtain ⟨i, hfind, hi⟩ := Option.bind_eq_some_iff.mp he
    obtain ⟨t, -, rfl⟩ := Option.map_eq_some_iff.mp hi
    have hle := (List.mem_range'_1.mp (List.mem_of_find?_eq_some hfind)).1
    simpa using hle

private theorem toPointer_toIndex (p : Option (Option Nat)) : toPointer (toIndex p) = p := by
  cases p with
  | none => rfl
  | some p =>
    cases p with
    | none => rfl
    | some i =>
      rfl

private theorem load_save : load q.save = q := by
  unfold load save
  simp [toPointer_toIndex]

private theorem Holds.rotate (h : Holds numQueues q prepared) (priority : Nat) :
    Holds numQueues (q.rotate priority) prepared ∧
      (q.rotate priority).data = Function.update q.data priority ((q.data priority).drop 1 ++ (q.data priority).take 1) := by
  unfold ThreadQueueList.rotate
  split
  · rename_i first second rest hdata
    exact ⟨h.update fun _ => h.of_ne_nil (by simp [hdata]), by simp [hdata]⟩
  · rename_i hshort
    refine ⟨h, ?_⟩
    rw [eq_comm, Function.update_eq_self_iff]
    match hdata : q.data priority with
    | [] => rfl
    | [threadId] => rfl
    | first :: second :: rest => exact absurd hdata (hshort first second rest)

variable [DecidableEq T]

/-- An operation does to the queues what it should, and gives the same result. -/
theorem Holds.perform (h : Holds numQueues q prepared) {op : Operation T} (hlevels : ∀ p ∈ op.priorities, p < numQueues)
    (hneeds : op.Needs prepared) :
    ∃ r, q.perform numQueues op = some r ∧ Holds numQueues r.2 (op.prepares ++ prepared) ∧
      (r.1, r.2.data) = Fifos.perform numQueues q.data op := by
  have hremove (priority : Nat) (threadId : T) : Holds numQueues (q.remove priority threadId) prepared := by
    refine h.update fun hne => h.of_ne_nil ?_
    intro hnil
    simp [hnil] at hne
  cases op with
  | prepare priority =>
    refine ⟨_, rfl, h.prepare (hlevels priority List.mem_cons_self), ?_⟩
    rw [data_prepare]
    rfl
  | pushFront priority threadId => exact ⟨_, rfl, h.update fun _ => (h.linked priority).mpr hneeds, rfl⟩
  | pushBack priority threadId => exact ⟨_, rfl, h.update fun _ => (h.linked priority).mpr hneeds, rfl⟩
  | move threadId oldPriority newPriority =>
    have hprepared := (hremove oldPriority threadId).prepare (hlevels newPriority (by simp [Operation.priorities]))
    refine ⟨_, rfl, hprepared.update fun _ => (hprepared.linked newPriority).mpr List.mem_cons_self, ?_⟩
    simp only [ThreadQueueList.move, ThreadQueueList.pushBack, data_prepare]
    rfl
  | remove priority threadId => exact ⟨_, rfl, hremove priority threadId, rfl⟩
  | rotate priority =>
    obtain ⟨hrotate, hdata⟩ := h.rotate priority
    exact ⟨_, rfl, hrotate, by rw [hdata]; rfl⟩
  | popFirst => exact h.popFirst
  | popFirstBetter priority => exact h.popFirstBetter ((h.linked priority).mpr hneeds)
  | saveLoad =>
    refine ⟨_, rfl, ?_, ?_⟩
    · rw [load_save]
      exact h
    · rfl

theorem Holds.performs (h : Holds numQueues q prepared) {ops : List (Operation T)}
    (hadmitted : RunAdmitted numQueues prepared ops) :
    ∃ results t, performs numQueues ops q = some (results, t) ∧
      (results, t.data) = Fifos.performs numQueues ops q.data ∧
      ∃ prepared', Holds numQueues t prepared' ∧ ∀ i, i ∈ prepared' ↔ i ∈ preparedIn ops ++ prepared := by
  induction ops generalizing q prepared with
  | nil => exact ⟨[], q, rfl, rfl, prepared, h, fun _ => Iff.rfl⟩
  | cons op ops ih =>
    obtain ⟨hlevels, hneeds, hrest⟩ := hadmitted
    obtain ⟨r, hr, hholds, hfifos⟩ := h.perform hlevels hneeds
    obtain ⟨results, t, hperforms, hresults, prepared', ht, hmem⟩ := ih hholds hrest
    refine ⟨r.1 :: results, t, ?_, ?_, prepared', ht, ?_⟩
    · rw [ThreadQueueList.performs, hr, Option.bind_eq_bind, Option.bind_some]
      dsimp only
      rw [hperforms]
      rfl
    · rw [Fifos.performs, ← hfifos]
      dsimp only
      rw [← hresults]
    · intro i
      rw [hmem]
      simp only [preparedIn, List.flatMap_cons, List.mem_append]
      tauto

/-- A run that pushes to prepared levels only is a run of an array of queues, and the chain from `first` lists the
levels that were prepared. -/
theorem performs_refines (numQueues : Nat) (ops : List (Operation T)) (hadmitted : RunAdmitted numQueues [] ops) :
    ∃ results q, performs numQueues ops {} = some (results, q) ∧
      (results, q.data) = Fifos.performs numQueues ops (fun _ => []) ∧
      q.Lists q.first ((List.range numQueues).filter fun i => q.Linked i) ∧
      ∀ i, q.Linked i ↔ i ∈ preparedIn ops := by
  have hinitial : Holds numQueues ({} : ThreadQueueList T) [] := by
    refine ⟨WF.empty, fun p t ht => (List.not_mem_nil ht).elim, ?_⟩
    intro i
    simp [Linked]
  obtain ⟨results, q, hperforms, hfifos, prepared, hq, hmem⟩ := hinitial.performs hadmitted
  refine ⟨results, q, hperforms, hfifos, hq.wf.lists, ?_⟩
  intro i
  rw [hq.linked, hmem, List.append_nil]

/-- A lower level is linked in front of one that has an element. -/
theorem performs_refines_lower : ∃ results q,
    performs 3 [.prepare 2, .pushBack 2 7, .move 9 2 1, .popFirstBetter 2, .saveLoad, .popFirst] {} =
        some (results, q) ∧
      (results, q.data) =
        Fifos.performs 3 [.prepare 2, .pushBack 2 7, .move 9 2 1, .popFirstBetter 2, .saveLoad, .popFirst]
          (fun _ => []) ∧
      q.Lists q.first ((List.range 3).filter fun i => q.Linked i) ∧
      ∀ i, q.Linked i ↔
        i ∈ preparedIn [.prepare 2, .pushBack 2 7, .move 9 2 1, .popFirstBetter 2, .saveLoad, .popFirst] :=
  performs_refines 3 _ (by simp [RunAdmitted, Operation.priorities, Operation.Needs, Operation.prepares])

end SweepDSEmu.ThreadQueueList
