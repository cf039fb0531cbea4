import SweepDSEmu.Kernel.HandleTable

/-!
# Runs of the handle table

A run is a sequence of `Create`, `Duplicate`, `Close` and `Clear` on a new table.  Beside the table we keep the
history of the run: which creation returned which handle, and which slots were closed.  The invariant `Tracks`
says that the table is a faithful summary of the history, and gives for every run:

* the free list visits the empty slots, each once, and ends at `maxCount`;
* `Create` fails exactly when every slot is occupied;
* a value below `2 ^ 31` is looked up to the object of the creation that returned it and whose slot was not closed
  since, and to nothing when there is none;
* the generation of the `n`-th creation is `1 + n % 32767`, so a value comes back only after 32766 other creations.
-/

namespace SweepDSEmu.HandleTable

open Handle Function

variable {Obj : Type}

/-- An operation on a table.  `Duplicate` also reads the running thread and process. -/
inductive Op (Obj : Type) where
  | create (obj : Obj)
  | duplicate (cur : Current Obj) (handle : Handle)
  | close (handle : Handle)
  | clear

inductive Event (Obj : Type) where
  | created (slot : Nat) (handle : Handle) (obj : Obj)
  | closed (slot : Nat)
  | cleared

def Event.Closes (s : Nat) : Event Obj → Prop
  | .created _ _ _ => False
  | .closed s' => s' = s
  | .cleared => True

/-- The history after a successful or failed creation of a handle to `obj`. -/
def recordCreate (t : HandleTable Obj) (hist : List (Event Obj)) (obj : Obj) :
    HandleTable Obj × List (Event Obj) :=
  match t.create obj with
  | .ok (h, t') => (t', .created t.nextFreeSlot h obj :: hist)
  | .error _ => (t, hist)

/-- One operation, with the history extended at its head. -/
def step (c : HandleTable Obj × List (Event Obj)) : Op Obj → HandleTable Obj × List (Event Obj)
  | .create obj => recordCreate c.1 c.2 obj
  | .duplicate cur h =>
    match c.1.getGeneric cur h with
    | some obj => recordCreate c.1 c.2 obj
    | none => c
  | .close h =>
    match c.1.close h with
    | .ok t' => (t', .closed (getSlot h) :: c.2)
    | .error _ => c
  | .clear => (c.1.clear, .cleared :: c.2)

def run (ops : List (Op Obj)) : HandleTable Obj × List (Event Obj) := ops.foldl step (init, [])

/-- The value `h` was returned for `obj` by a creation whose slot was not closed since. -/
def Live (hist : List (Event Obj)) (h : Handle) (obj : Obj) : Prop :=
  ∃ newer older s, hist = newer ++ .created s h obj :: older ∧ ∀ e ∈ newer, ¬ e.Closes s

def creations : List (Event Obj) → List Handle
  | [] => []
  | .created _ h _ :: hist => h :: creations hist
  | _ :: hist => creations hist

/-- What every run guarantees of its table and its history. -/
structure Consistent (t : HandleTable Obj) (hist : List (Event Obj)) : Prop where
  freeList : ∃ l, FreeList t t.nextFreeSlot l ∧ l.Nodup ∧ ∀ s < maxCount, s ∈ l ↔ t.objects s = none
  create_fails : ∀ obj, t.create obj = .error .outOfHandles ↔ ∀ s < maxCount, (t.objects s).isSome
  lookup : ∀ cur h, h.toNat < 2 ^ 31 → ∀ obj, t.getGeneric cur h = some obj ↔ Live hist h obj
  reuse : ∀ n m h, n < m → (creations hist).reverse[n]? = some h → (creations hist).reverse[m]? = some h →
    n + 32766 < m

private def owner : List (Event Obj) → Nat → Option (Handle × Obj)
  | [], _ => none
  | .created s' h obj :: hist, s => if s' = s then some (h, obj) else owner hist s
  | .closed s' :: hist, s => if s' = s then none else owner hist s
  | .cleared :: _, _ => none

/-- Creations only use empty slots, and a handle is the one packed for its slot. -/
private def Proper : List (Event Obj) → Prop
  | [] => True
  | .created s h _ :: hist => owner hist s = none ∧ getSlot h = s ∧ Proper hist
  | _ :: hist => Proper hist

variable {t t' : HandleTable Obj} {obj : Obj}

private theorem owner_append {newer older : List (Event Obj)} {s : Nat} {h : Handle}
    (hp : Proper (newer ++ .created s h obj :: older)) (hn : ∀ e ∈ newer, ¬ e.Closes s) :
    owner (newer ++ .created s h obj :: older) s = some (h, obj) := by
  induction newer with
  | nil => simp [owner]
  | cons e newer ih =>
    have hn' : ∀ e' ∈ newer, ¬ e'.Closes s := fun e' he' => hn e' (by simp [he'])
    have he := hn e (by simp)
    cases e with
    | created s' h' obj' =>
      obtain ⟨hfree, -, hp'⟩ := hp
      have ih' := ih hp' hn'
      -- a later creation on the same slot would have found it occupied
      have hne : s' ≠ s := by rintro rfl; rw [List.append_eq, ih'] at hfree; cases hfree
      simpa [owner, hne] using ih'
    | closed s' =>
      have hne : s' ≠ s := he
      simpa [owner, hne] using ih hp hn'
    | cleared => exact absurd trivial he

private theorem live_of_owner {hist : List (Event Obj)} {s : Nat} {h : Handle} (ho : owner hist s = some (h, obj)) :
    ∃ newer older, hist = newer ++ .created s h obj :: older ∧ ∀ e ∈ newer, ¬ e.Closes s := by
  induction hist with
  | nil => simp [owner] at ho
  | cons e hist ih =>
    have extend : ¬ e.Closes s → owner hist s = some (h, obj) →
        ∃ newer older, e :: hist = newer ++ .created s h obj :: older ∧ ∀ e ∈ newer, ¬ e.Closes s := by
      intro he ho'
      obtain ⟨newer, older, rfl, hn⟩ := ih ho'
      exact ⟨e :: newer, older, rfl, by simpa using ⟨he, hn⟩⟩
    cases e with
    | created s' h' obj' =>
      by_cases hs : s' = s
      · simp only [owner, hs, ↓reduceIte, Option.some.injEq, Prod.mk.injEq] at ho
        obtain ⟨rfl, rfl⟩ := ho
        exact ⟨[], hist, by simp [hs], by simp⟩
      · exact extend (fun h => h) (by simpa [owner, hs] using ho)
    | closed s' =>
      by_cases hs : s' = s
      · simp [owner, hs] at ho
      · exact extend hs (by simpa [owner, hs] using ho)
    | cleared => simp [owner] at ho

private theorem getSlot_of_proper {hist : List (Event Obj)} (hp : Proper hist) {s : Nat} {h : Handle}
    (hm : .created s h obj ∈ hist) : getSlot h = s := by
  induction hist with
  | nil => simp at hm
  | cons e hist ih =>
    rcases List.mem_cons.mp hm with rfl | hm'
    · exact hp.2.1
    · cases e with
      | created => exact ih hp.2.2 hm'
      | closed => exact ih hp hm'
      | cleared => exact ih hp hm'

private theorem live_iff_owner {hist : List (Event Obj)} (hp : Proper hist) {h : Handle} :
    Live hist h obj ↔ owner hist (getSlot h) = some (h, obj) := by
  constructor
  · rintro ⟨newer, older, s, rfl, hn⟩
    have hslot : getSlot h = s := by
      refine getSlot_of_proper hp (show Event.created s h obj ∈ _ from ?_)
      simp
    rw [hslot]
    exact owner_append hp hn
  · intro ho
    obtain ⟨newer, older, hh, hn⟩ := live_of_owner ho
    exact ⟨newer, older, _, hh, hn⟩

private structure Tracks (t : HandleTable Obj) (hist : List (Event Obj)) : Prop where
  proper : Proper hist
  slots : ∀ s h obj, .created s h obj ∈ hist → s < maxCount
  generation : t.nextGeneration = 1 + (creations hist).length % 32767
  freeList : ∃ l, FreeList t t.nextFreeSlot l ∧ l.Nodup ∧ ∀ s < maxCount, s ∈ l ↔ t.objects s = none
  objects : ∀ s < maxCount, t.objects s = (owner hist s).map Prod.snd
  handle : ∀ s < maxCount, ∀ h obj, owner hist s = some (h, obj) →
    h = pack (t.generations s) s ∧ t.generations s < 2 ^ 15
  numbered : ∀ n h, (creations hist).reverse[n]? = some h → getGeneration h = 1 + n % 32767

private theorem clear_freeList (t : HandleTable Obj) :
    ∃ l, FreeList t.clear 0 l ∧ l.Nodup ∧ ∀ s < maxCount, s ∈ l ↔ t.clear.objects s = none := by
  -- from slot `n` the list visits `n, n + 1, …` up to the last slot
  have chain : ∀ k n, n + k = maxCount → FreeList t.clear n (List.range' n k) := by
    intro k
    induction k with
    | zero => intro n hn; exact hn
    | succ k ih => intro n hn; exact ⟨rfl, by omega, ih (n + 1) (by omega)⟩
  refine ⟨List.range' 0 maxCount, chain maxCount 0 (by omega), List.nodup_range', ?_⟩
  intro s hs
  simp [clear, List.mem_range', hs]

private theorem clear_tracks {hist : List (Event Obj)} (h : Tracks t hist) : Tracks t.clear (.cleared :: hist) where
  proper := h.proper
  slots := by intro s h' obj hm; exact h.slots s h' obj (by simpa using hm)
  generation := h.generation
  freeList := clear_freeList t
  objects := by intro s _; simp [clear, owner]
  handle := by intro s _ h' obj ho; simp [owner] at ho
  numbered := h.numbered

private theorem init_tracks : Tracks (init : HandleTable Obj) [] where
  proper := trivial
  slots := by simp
  generation := rfl
  freeList := clear_freeList _
  objects := by intro s _; rfl
  handle := by intro s _ h obj ho; simp [owner] at ho
  numbered := by intro n h hn; simp [creations] at hn

private theorem create_ok {h : Handle} (hc : t.create obj = .ok (h, t')) :
    t.nextFreeSlot < maxCount ∧ h = pack t.nextGeneration t.nextFreeSlot ∧
      t' = { objects := update t.objects t.nextFreeSlot (some obj)
             generations := update t.generations t.nextFreeSlot t.nextGeneration
             nextGeneration := if 2 ^ 15 ≤ t.nextGeneration + 1 then 1 else t.nextGeneration + 1
             nextFreeSlot := t.generations t.nextFreeSlot } := by
  unfold create at hc
  dsimp only at hc
  split at hc
  · rename_i hlt
    simp only [Except.ok.injEq, Prod.mk.injEq] at hc
    exact ⟨hlt, hc.1.symm, hc.2.symm⟩
  · cases hc

private theorem create_tracks {hist : List (Event Obj)} {h : Handle}
    (ht : Tracks t hist) (hc : t.create obj = .ok (h, t')) : Tracks t' (.created t.nextFreeSlot h obj :: hist) := by
  obtain ⟨hlt, rfl, rfl⟩ := create_ok hc
  obtain ⟨l, hl, hnd, hmem⟩ := ht.freeList
  -- the head of the free list is the slot that is taken
  obtain ⟨l', rfl⟩ : ∃ l', l = t.nextFreeSlot :: l' := by
    cases l with
    | nil => exact absurd hl (Nat.ne_of_lt hlt)
    | cons s l' => exact ⟨l', by rw [hl.1]⟩
  have hgen : t.nextGeneration < 2 ^ 15 := by rw [ht.generation]; omega
  have hslot : t.nextFreeSlot < 2 ^ 16 := by simp only [maxCount] at hlt; omega
  have hnd' := List.nodup_cons.mp hnd
  have hnone : t.objects t.nextFreeSlot = none := (hmem _ hlt).mp (by simp)
  refine ⟨⟨?_, getSlot_pack hgen hslot, ht.proper⟩, ?_, ?_, ⟨l', ?_, hnd'.2, ?_⟩, ?_, ?_, ?_⟩
  · have := ht.objects _ hlt
    rw [hnone] at this
    simpa using this.symm
  · intro s h obj' hm
    rcases List.mem_cons.mp hm with he | hm'
    · cases he; exact hlt
    · exact ht.slots s h obj' hm'
  · show (if 2 ^ 15 ≤ t.nextGeneration + 1 then 1 else t.nextGeneration + 1) =
      1 + ((creations hist).length + 1) % 32767
    have := ht.generation
    split <;> omega
  · exact hl.2.2.congr (fun s hs => update_of_ne (fun he => hnd'.1 (by rw [← he]; exact hs)) _ _)
  · intro s hs
    by_cases he : s = t.nextFreeSlot
    · subst he; simp [hnd'.1]
    · have := hmem s hs
      simpa [update_of_ne he, he] using this
  · intro s hs
    by_cases he : s = t.nextFreeSlot
    · subst he; simp [owner]
    · simpa [update_of_ne he, owner, Ne.symm he] using ht.objects s hs
  · intro s hs h' obj' ho
    by_cases he : s = t.nextFreeSlot
    · subst he
      simp only [owner, ↓reduceIte, Option.some.injEq, Prod.mk.injEq] at ho
      exact ⟨by simp [← ho.1], by simpa using hgen⟩
    · simp only [owner, Ne.symm he, ↓reduceIte] at ho
      simpa [update_of_ne he] using ht.handle s hs h' obj' ho
  · intro n h' hn
    simp only [creations, List.reverse_cons] at hn
    rcases Nat.lt_or_ge n (creations hist).reverse.length with hlt' | hge
    · rw [List.getElem?_append_left hlt'] at hn
      exact ht.numbered n h' hn
    · obtain ⟨hn1, hn2⟩ := List.getElem?_eq_some_iff.mp hn
      have hn' : n = (creations hist).length := by simp at hge hn1; omega
      simp [hn'] at hn
      rw [← hn, getGeneration_pack hgen hslot, ht.generation, hn']

private theorem close_ok {h : Handle} (hc : t.close h = .ok t') :
    t.isValid h = true ∧
      t' = { t with objects := update t.objects (getSlot h) none
                    generations := update t.generations (getSlot h) t.nextFreeSlot
                    nextFreeSlot := getSlot h } := by
  unfold close at hc
  split at hc
  · rename_i hv
    simp only [Except.ok.injEq] at hc
    exact ⟨hv, hc.symm⟩
  · cases hc

private theorem close_tracks {hist : List (Event Obj)} {h : Handle}
    (ht : Tracks t hist) (hc : t.close h = .ok t') : Tracks t' (.closed (getSlot h) :: hist) := by
  obtain ⟨hv, rfl⟩ := close_ok hc
  obtain ⟨hlt, hsome, -⟩ := isValid_iff.mp hv
  obtain ⟨l, hl, hnd, hmem⟩ := ht.freeList
  have hnot : getSlot h ∉ l := by
    intro hin
    rw [(hmem _ hlt).mp hin] at hsome
    cases hsome
  refine ⟨ht.proper, fun s h' obj hm => ht.slots s h' obj (by simpa using hm), ht.generation, ⟨getSlot h :: l, ⟨rfl, hlt, ?_⟩, List.nodup_cons.mpr ⟨hnot, hnd⟩, ?_⟩,
    ?_, ?_, ht.numbered⟩
  · simp only [update_self]
    exact hl.congr (fun s hs => update_of_ne (fun he => hnot (by rw [← he]; exact hs)) _ _)
  · intro s hs
    by_cases he : s = getSlot h
    · subst he; simp
    · simpa [update_of_ne he, he] using hmem s hs
  · intro s hs
    by_cases he : s = getSlot h
    · subst he; simp [owner]
    · simpa [update_of_ne he, owner, Ne.symm he] using ht.objects s hs
  · intro s hs h' obj ho
    by_cases he : s = getSlot h
    · subst he; simp [owner] at ho
    · simp only [owner, Ne.symm he, ↓reduceIte] at ho
      simpa [update_of_ne he] using ht.handle s hs h' obj ho

private theorem step_tracks {c : HandleTable Obj × List (Event Obj)} (h : Tracks c.1 c.2) (op : Op Obj) :
    Tracks (step c op).1 (step c op).2 := by
  have hrec : ∀ obj, Tracks (recordCreate c.1 c.2 obj).1 (recordCreate c.1 c.2 obj).2 := by
    intro obj
    unfold recordCreate
    split
    · rename_i hc; exact create_tracks h hc
    · exact h
  cases op with
  | create obj => exact hrec obj
  | duplicate cur hd =>
    simp only [step]
    split
    · exact hrec _
    · exact h
  | close hd =>
    simp only [step]
    split
    · rename_i hc; exact close_tracks h hc
    · exact h
  | clear => exact clear_tracks h

private theorem run_tracks (ops : List (Op Obj)) : Tracks (run ops).1 (run ops).2 := by
  have gen : ∀ (ops : List (Op Obj)) (c : HandleTable Obj × List (Event Obj)), Tracks c.1 c.2 →
      Tracks (ops.foldl step c).1 (ops.foldl step c).2 := by
    intro ops
    induction ops with
    | nil => intro c hc; exact hc
    | cons op ops ih => intro c hc; exact ih _ (step_tracks hc op)
  exact gen ops _ init_tracks

def Reachable (t : HandleTable Obj) : Prop := ∃ ops, (run ops).1 = t

private theorem run_snoc (ops : List (Op Obj)) (op : Op Obj) : run (ops ++ [op]) = step (run ops) op := by
  unfold run
  rw [List.foldl_append]
  rfl

theorem Reachable.create (ht : Reachable t) {h : Handle} (hc : t.create obj = .ok (h, t')) : Reachable t' := by
  obtain ⟨ops, rfl⟩ := ht
  refine ⟨ops ++ [.create obj], ?_⟩
  rw [run_snoc]
  simp only [step, recordCreate, hc]

theorem Reachable.create_spec (ht : Reachable t) {h : Handle} (hc : t.create obj = .ok (h, t')) :
    t.nextFreeSlot < maxCount ∧ t.objects t.nextFreeSlot = none ∧ t.nextGeneration < 2 ^ 15 ∧
      h = pack t.nextGeneration t.nextFreeSlot ∧ t'.objects = update t.objects t.nextFreeSlot (some obj) ∧
      t'.generations = update t.generations t.nextFreeSlot t.nextGeneration := by
  obtain ⟨ops, rfl⟩ := ht
  have htr := run_tracks ops
  obtain ⟨hlt, rfl, rfl⟩ := create_ok hc
  obtain ⟨l, hl, -, hmem⟩ := htr.freeList
  have hin : (run ops).1.nextFreeSlot ∈ l := by
    cases l with
    | nil => exact absurd hl (Nat.ne_of_lt hlt)
    | cons s l' =>
      rw [hl.1]
      exact List.mem_cons_self
  have hgen := htr.generation
  exact ⟨hlt, (hmem _ hlt).mp hin, by omega, rfl, rfl, rfl⟩

private theorem Tracks.create_fails {hist : List (Event Obj)} (ht : Tracks t hist)
    (obj : Obj) : t.create obj = .error .outOfHandles ↔ ∀ s < maxCount, (t.objects s).isSome := by
  obtain ⟨l, hl, -, hmem⟩ := ht.freeList
  constructor
  · intro hc s hs
    have hge : ¬ t.nextFreeSlot < maxCount := by
      intro hlt
      simp [create, hlt] at hc
    -- the list is empty: its head would be a slot
    have hnil : l = [] := by
      cases l with
      | nil => rfl
      | cons u l => exact absurd (by rw [hl.1]; exact hl.2.1) hge
    subst hnil
    have := hmem s hs
    rw [Option.isSome_iff_ne_none]
    simpa using this
  · intro hall
    have hge : ¬ t.nextFreeSlot < maxCount := by
      intro hlt
      cases l with
      | nil => exact absurd hl (Nat.ne_of_lt hlt)
      | cons u l =>
        have hu := (hmem u hl.2.1).mp (by simp)
        have := hall u hl.2.1
        rw [hu] at this
        cases this
    simp [create, hge]

private theorem Tracks.lookup {hist : List (Event Obj)} (ht : Tracks t hist)
    (cur : Current Obj) {h : Handle} (hh : h.toNat < 2 ^ 31) (obj : Obj) :
    t.getGeneric cur h = some obj ↔ Live hist h obj := by
  rw [getGeneric_of_lt hh, live_iff_owner ht.proper]
  constructor
  · intro hg
    split at hg
    · rename_i hv
      obtain ⟨hlt, -, hgen⟩ := isValid_iff.mp hv
      rw [ht.objects _ hlt] at hg
      obtain ⟨⟨h', obj'⟩, ho, rfl⟩ := Option.map_eq_some_iff.mp hg
      have hpack := (ht.handle _ hlt h' obj' ho).1
      rw [hgen, pack_get hh] at hpack
      rw [ho, hpack]
    · cases hg
  · intro ho
    have hlt : getSlot h < maxCount := by
      by_contra hge
      -- the slots of a history are slots of the table
      obtain ⟨newer, older, rfl, -⟩ := live_of_owner ho
      exact hge (ht.slots _ h obj (by simp))
    have hgen := (ht.handle _ hlt h obj ho)
    have hobj := ht.objects _ hlt
    rw [ho] at hobj
    have hs : getSlot h < 2 ^ 16 := by simp only [maxCount] at hlt; omega
    have hv : t.isValid h = true := by
      refine isValid_iff.mpr ⟨hlt, by rw [hobj]; rfl, ?_⟩
      have := getGeneration_pack hgen.2 hs
      rw [← hgen.1] at this
      exact this.symm
    rw [hv, hobj]
    rfl

/-- Every run of a handle table is consistent with its history. -/
theorem run_consistent (ops : List (Op Obj)) : Consistent (run ops).1 (run ops).2 := by
  have ht := run_tracks ops
  refine ⟨ht.freeList, ht.create_fails, fun cur h hh obj => ht.lookup cur hh obj, ?_⟩
  intro n m h hnm hn hm
  -- equal handles have equal generations, and these count the creations modulo 32767
  have h1 := ht.numbered n h hn
  have h2 := ht.numbered m h hm
  omega

/-- The `n`-th of a series of operations that create a second handle and close it again. -/
private def cycle : Nat → List (Op Bool)
  | 0 => []
  | n + 1 => cycle n ++ [.create false, .close (pack (n + 2) 1)]

/-- The table with one handle, of generation 1 in slot 0, and the counter at `g`. -/
private def oneHandle (g : Nat) : HandleTable Bool where
  objects := update (fun _ => none) 0 (some true)
  generations := update (fun i => i + 1) 0 1
  nextGeneration := g
  nextFreeSlot := 1

private theorem oneHandle_cycle {g : Nat} (hist : List (Event Bool)) (hg : g < 2 ^ 15) :
    ∃ hist', [.create false, .close (pack g 1)].foldl step (oneHandle g, hist) =
      (oneHandle (if 2 ^ 15 ≤ g + 1 then 1 else g + 1), hist') := by
  have hs : getSlot (pack g 1) = 1 := getSlot_pack hg (by omega)
  have hgen : getGeneration (pack g 1) = g := getGeneration_pack hg (by omega)
  refine ⟨[.closed 1, .created 1 (pack g 1) false] ++ hist, ?_⟩
  simp [step, recordCreate, create, close, isValid, oneHandle, maxCount, hs, hgen]

private theorem run_cycle (n : Nat) (hn : n ≤ 32766) :
    ∃ hist, run (.create true :: cycle n) = (oneHandle (if n = 32766 then 1 else n + 2), hist) := by
  induction n with
  | zero => exact ⟨_, rfl⟩
  | succ n ih =>
    obtain ⟨hist, ih⟩ := ih (by omega)
    obtain ⟨hist', hc⟩ := oneHandle_cycle hist (g := n + 2) (by omega)
    refine ⟨hist', ?_⟩
    have : run (.create true :: cycle (n + 1)) =
        [.create false, .close (pack (n + 2) 1)].foldl step (run (.create true :: cycle n)) := by
      simp only [run, cycle, List.foldl_cons, List.foldl_append]
    rw [this, ih, if_neg (by omega), hc]
    congr 2
    split <;> split <;> omega

private theorem oneHandle_close_create : ∃ t, (oneHandle 1).close 1 = .ok t ∧ t.isValid 1 = false ∧
    ∃ t', t.create true = .ok (1, t') ∧ t'.getGeneric ⟨none, none⟩ 1 = some true := by
  have hs : getSlot 1 = 0 := by decide
  have hp : pack 1 0 = 1 := by decide
  refine ⟨⟨update (fun _ => none) 0 none, update (fun i => i + 1) 0 1, 1, 0⟩, ?_, by decide, oneHandle 2, ?_, ?_⟩
  · have hv : (oneHandle 1).isValid 1 = true := by decide
    rw [close, if_pos hv]
    simp [hs, oneHandle]
  · simp [create, maxCount, hp, oneHandle]
  · decide

/-- A handle value is closed, and the very next creation returns it again: the counter ran through a whole cycle
while the handle was open.  And a value that no creation returned is looked up to an object, as `GetSlot` drops
bit 31. -/
theorem closed_value_returns_and_bit31_aliases :
    (∃ ops : List (Op Bool), ∃ t, (run ops).1.close 1 = .ok t ∧ t.isValid 1 = false ∧
      ∃ t', t.create true = .ok (1, t') ∧ t'.getGeneric ⟨none, none⟩ 1 = some true) ∧
    (run [.create true]).1.getGeneric ⟨none, none⟩ 0x80000001 = some true ∧
    ¬ Live (run [.create true]).2 0x80000001 true := by
  refine ⟨?_, by decide, ?_⟩
  · obtain ⟨hist, hrun⟩ := run_cycle 32766 (by omega)
    refine ⟨.create true :: cycle 32766, ?_⟩
    rw [hrun]
    exact oneHandle_close_create
  · rintro ⟨newer, older, s, hh, -⟩
    have hm : Event.created s 0x80000001 true ∈ (run [.create true]).2 := by rw [hh]; simp
    simp only [run, List.foldl_cons, List.foldl_nil, step, recordCreate] at hm
    have hc : (init : HandleTable Bool).create true = .ok (1, oneHandle 2) := rfl
    rw [hc] at hm
    simp at hm

end SweepDSEmu.HandleTable
