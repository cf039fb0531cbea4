import SweepDSEmu.Lib.LinkedSegment
import SweepDSEmu.Lib.Outcome

/-!
# The lists of loaded modules

A loaded module (CRO) has a header with two link fields.  The registered modules form two half-circular lists, the
auto-link modules and the manual ones, that are both anchored in the static module (CRS): its next field leads to the
first auto-link module, and its previous field to the first manual one.

* `initCRS`, `register` and `unregister` are the operations of the program, on the words of the memory.
* `Registered` is what they are for: the modules of the two lists in the order of their registration.
* `ModuleLists` is the invariant that connects the two.

Modules are mapped at page-aligned addresses, so the link fields of different modules are different words.
-/

namespace SweepDSEmu.CROHelper

abbrev Words := Nat → Nat

inductive HeaderField
  | nextCRO
  | previousCRO
  deriving DecidableEq

def HeaderField.index : HeaderField → Nat
  | .nextCRO => 2
  | .previousCRO => 3

def croHashSize : Nat := 0x80

def field (moduleAddress : Nat) (f : HeaderField) : Nat := moduleAddress + croHashSize + f.index * 4

def getField (mem : Words) (moduleAddress : Nat) (f : HeaderField) : Nat := mem (field moduleAddress f)

def setField (mem : Words) (moduleAddress : Nat) (f : HeaderField) (value : Nat) : Words :=
  Function.update mem (field moduleAddress f) value

def nextModule (mem : Words) (moduleAddress : Nat) : Nat := getField mem moduleAddress .nextCRO

def previousModule (mem : Words) (moduleAddress : Nat) : Nat := getField mem moduleAddress .previousCRO

def setNextModule (mem : Words) (moduleAddress next : Nat) : Words := setField mem moduleAddress .nextCRO next

def setPreviousModule (mem : Words) (moduleAddress previous : Nat) : Words :=
  setField mem moduleAddress .previousCRO previous

/-- The ways in which an operation aborts. -/
inductive Fault
  /-- The tail of a list has a next module. -/
  | tailLinked
  /-- A module without a next one is the tail of no list. -/
  | unreachable
  deriving DecidableEq

def initCRS (mem : Words) (crs : Nat) : Words := setPreviousModule (setNextModule mem crs 0) crs 0

/-- The field of the static module that leads to the first module of a list. -/
def headModule (mem : Words) (crs : Nat) (autoLink : Bool) : Nat :=
  if autoLink then nextModule mem crs else previousModule mem crs

def setHeadModule (mem : Words) (crs : Nat) (autoLink : Bool) (head : Nat) : Words :=
  if autoLink then setNextModule mem crs head else setPreviousModule mem crs head

def linkTail (mem : Words) (moduleAddress head tail : Nat) : Words :=
  let mem := setPreviousModule mem moduleAddress tail
  let mem := setNextModule mem tail moduleAddress
  let mem := setPreviousModule mem head moduleAddress
  setNextModule mem moduleAddress 0

def register (mem : Words) (moduleAddress crs : Nat) (autoLink : Bool) : Except Fault Words :=
  let head := headModule mem crs autoLink
  if head ≠ 0 then
    let tail := previousModule mem head
    if nextModule mem tail = 0 then .ok (linkTail mem moduleAddress head tail) else .error .tailLinked
  else
    let mem := setPreviousModule mem moduleAddress moduleAddress
    let mem := setHeadModule mem crs autoLink moduleAddress
    .ok (setNextModule mem moduleAddress 0)

/-- The end of `Unregister`: the module is unlinked itself. -/
def unlinkSelf (mem : Words) (moduleAddress : Nat) : Words :=
  setPreviousModule (setNextModule mem moduleAddress 0) moduleAddress 0

def unregister (mem : Words) (moduleAddress crs : Nat) : Except Fault Words :=
  let nextHead := nextModule mem crs
  let previousHead := previousModule mem crs
  let next := nextModule mem moduleAddress
  let previous := previousModule mem moduleAddress
  if moduleAddress = nextHead ∨ moduleAddress = previousHead then
    let mem := if next ≠ 0 then setPreviousModule mem next previous else mem
    if moduleAddress = previousHead then .ok (unlinkSelf (setHeadModule mem crs false next) moduleAddress)
    else .ok (unlinkSelf (setHeadModule mem crs true next) moduleAddress)
  else if next ≠ 0 then
    let mem := setNextModule mem previous next
    .ok (unlinkSelf (setPreviousModule mem next previous) moduleAddress)
  else
    let mem := setNextModule mem previous 0
    if nextHead ≠ 0 ∧ previousModule mem nextHead = moduleAddress then
      .ok (unlinkSelf (setPreviousModule mem nextHead previous) moduleAddress)
    else if previousHead ≠ 0 ∧ previousModule mem previousHead = moduleAddress then
      .ok (unlinkSelf (setPreviousModule mem previousHead previous) moduleAddress)
    else .error .unreachable

structure Registered where
  autoLink : List Nat := []
  manual : List Nat := []

/-- The steps of a run.  Between two operations of the lists the memory can change elsewhere. -/
inductive Op
  | register (moduleAddress : Nat) (autoLink : Bool)
  | unregister (moduleAddress : Nat)
  | other (write : Words → Words)

namespace Registered

def modules (r : Registered) : List Nat := r.autoLink ++ r.manual

def list (r : Registered) (autoLink : Bool) : List Nat := if autoLink then r.autoLink else r.manual

def after (r : Registered) : Op → Registered
  | .register m true => { r with autoLink := r.autoLink ++ [m] }
  | .register m false => { r with manual := r.manual ++ [m] }
  | .unregister m => ⟨r.autoLink.erase m, r.manual.erase m⟩
  | .other _ => r

end Registered

/-- The addresses at which modules are mapped. -/
def Aligned (m : Nat) : Prop := 0x1000 ∣ m

instance : DecidablePred Aligned := fun m => inferInstanceAs (Decidable (0x1000 ∣ m))

def Permitted (crs : Nat) (r : Registered) : Op → Prop
  | .register m _ => Aligned m ∧ m ≠ 0 ∧ m ≠ crs ∧ m ∉ r.modules
  | .unregister m => m ∈ r.modules
  | .other write => ∀ mem, ∀ m ∈ crs :: r.modules,
      nextModule (write mem) m = nextModule mem m ∧ previousModule (write mem) m = previousModule mem m

def PermittedRun (crs : Nat) : Registered → List Op → Prop
  | _, [] => True
  | r, op :: ops => Permitted crs r op ∧ PermittedRun crs (r.after op) ops

def exec (crs : Nat) (mem : Words) : Op → Except Fault Words
  | .register m autoLink => register mem m crs autoLink
  | .unregister m => unregister mem m crs
  | .other write => .ok (write mem)

def run (crs : Nat) (mem : Words) (ops : List Op) : Except Fault Words := ops.foldlM (exec crs) (initCRS mem crs)

/-- The next links lead from `start` through the modules of the list, and then to 0. -/
def Reaches (mem : Words) : Nat → List Nat → Prop
  | start, [] => start = 0
  | start, m :: l => start = m ∧ m ≠ 0 ∧ Reaches mem (nextModule mem m) l

structure LinkedModules (mem : Words) (start : Nat) (l : List Nat) : Prop where
  reaches : Reaches mem start l
  previous_head : ∀ head tail, l.head? = some head → l.getLast? = some tail → previousModule mem head = tail
  previous : l.IsChain fun a b => previousModule mem b = a
  next_tail : ∀ tail, l.getLast? = some tail → nextModule mem tail = 0

structure ModuleLists (crs : Nat) (mem : Words) (r : Registered) : Prop where
  aligned : ∀ m ∈ r.modules, Aligned m
  notMem_crs : crs ∉ r.modules
  nodup : r.modules.Nodup
  linked : ∀ autoLink, HalfCircular (nextModule mem) (previousModule mem) 0 (headModule mem crs autoLink) (r.list autoLink)

section Fields

variable {mem : Words} {m x v : Nat}

theorem nextModule_setNextModule : nextModule (setNextModule mem m v) x = if x = m then v else nextModule mem x := by
  unfold nextModule setNextModule getField setField field
  by_cases h : x = m
  · rw [h, if_pos rfl, Function.update_self]
  · rw [if_neg h, Function.update_of_ne (by omega)]

theorem previousModule_setPreviousModule :
    previousModule (setPreviousModule mem m v) x = if x = m then v else previousModule mem x := by
  unfold previousModule setPreviousModule getField setField field
  by_cases h : x = m
  · rw [h, if_pos rfl, Function.update_self]
  · rw [if_neg h, Function.update_of_ne (by omega)]

private theorem field_ne (hm : Aligned m) (hx : Aligned x) {f g : HeaderField} (hfg : f ≠ g) :
    field x f ≠ field m g := by
  unfold Aligned at hm hx
  unfold field
  cases f <;> cases g <;> simp only [HeaderField.index, ne_eq, not_true_eq_false, reduceCtorEq] at hfg ⊢ <;> omega

theorem nextModule_setPreviousModule (hm : Aligned m) (hx : Aligned x) :
    nextModule (setPreviousModule mem m v) x = nextModule mem x := by
  unfold nextModule setPreviousModule getField setField
  rw [Function.update_of_ne (field_ne hm hx (by decide))]

theorem previousModule_setNextModule (hm : Aligned m) (hx : Aligned x) :
    previousModule (setNextModule mem m v) x = previousModule mem x := by
  unfold previousModule setNextModule getField setField
  rw [Function.update_of_ne (field_ne hm hx (by decide))]

theorem nextModule_unlinkSelf (hm : Aligned m) (hx : Aligned x) (hne : x ≠ m) :
    nextModule (unlinkSelf mem m) x = nextModule mem x := by
  unfold unlinkSelf
  rw [nextModule_setPreviousModule hm hx, nextModule_setNextModule, if_neg hne]

theorem previousModule_unlinkSelf (hm : Aligned m) (hx : Aligned x) (hne : x ≠ m) :
    previousModule (unlinkSelf mem m) x = previousModule mem x := by
  unfold unlinkSelf
  rw [previousModule_setPreviousModule, if_neg hne, previousModule_setNextModule hm hx]

variable {b : Bool}

theorem nextModule_setHeadModule {crs : Nat} (hc : Aligned crs) (hx : Aligned x) (hne : x ≠ crs) :
    nextModule (setHeadModule mem crs b v) x = nextModule mem x := by
  unfold setHeadModule
  cases b with
  | true => rw [if_pos rfl, nextModule_setNextModule, if_neg hne]
  | false => rw [if_neg Bool.false_ne_true, nextModule_setPreviousModule hc hx]

theorem previousModule_setHeadModule {crs : Nat} (hc : Aligned crs) (hx : Aligned x) (hne : x ≠ crs) :
    previousModule (setHeadModule mem crs b v) x = previousModule mem x := by
  unfold setHeadModule
  cases b with
  | true => rw [if_pos rfl, previousModule_setNextModule hc hx]
  | false => rw [if_neg Bool.false_ne_true, previousModule_setPreviousModule, if_neg hne]

theorem headModule_setHeadModule {crs : Nat} {b b' : Bool} (hc : Aligned crs) :
    headModule (setHeadModule mem crs b v) crs b' = if b' = b then v else headModule mem crs b' := by
  unfold headModule setHeadModule
  cases b <;> cases b' <;>
    simp [nextModule_setNextModule, previousModule_setPreviousModule, nextModule_setPreviousModule hc hc,
      previousModule_setNextModule hc hc]

theorem headModule_setNextModule {crs : Nat} (hm : Aligned m) (hc : Aligned crs) (hne : crs ≠ m) :
    headModule (setNextModule mem m v) crs b = headModule mem crs b := by
  unfold headModule
  rw [nextModule_setNextModule, if_neg hne, previousModule_setNextModule hm hc]

theorem headModule_setPreviousModule {crs : Nat} (hm : Aligned m) (hc : Aligned crs) (hne : crs ≠ m) :
    headModule (setPreviousModule mem m v) crs b = headModule mem crs b := by
  unfold headModule
  rw [previousModule_setPreviousModule, if_neg hne, nextModule_setPreviousModule hm hc]

theorem headModule_unlinkSelf {crs : Nat} (hm : Aligned m) (hc : Aligned crs) (hne : crs ≠ m) :
    headModule (unlinkSelf mem m) crs b = headModule mem crs b := by
  unfold unlinkSelf
  rw [headModule_setPreviousModule hm hc hne, headModule_setNextModule hm hc hne]

theorem nextModule_linkTail {head tail : Nat} (hm : Aligned m) (hh : Aligned head) (hx : Aligned x) :
    nextModule (linkTail mem m head tail) x = if x = m then 0 else if x = tail then m else nextModule mem x := by
  unfold linkTail
  rw [nextModule_setNextModule, nextModule_setPreviousModule hh hx, nextModule_setNextModule,
    nextModule_setPreviousModule hm hx]

theorem previousModule_linkTail {head tail : Nat} (hm : Aligned m) (ht : Aligned tail) (hx : Aligned x) :
    previousModule (linkTail mem m head tail) x = if x = head then m else if x = m then tail else previousModule mem x := by
  unfold linkTail
  rw [previousModule_setNextModule hm hx, previousModule_setPreviousModule, previousModule_setNextModule ht hx,
    previousModule_setPreviousModule]

theorem headModule_linkTail {crs head tail : Nat} (hm : Aligned m) (hh : Aligned head) (ht : Aligned tail)
    (hc : Aligned crs) (hcm : crs ≠ m) (hch : crs ≠ head) (hct : crs ≠ tail) :
    headModule (linkTail mem m head tail) crs b = headModule mem crs b := by
  unfold linkTail
  rw [headModule_setNextModule hm hc hcm, headModule_setPreviousModule hh hc hch, headModule_setNextModule ht hc hct,
    headModule_setPreviousModule hm hc hcm]

end Fields

section Registration

variable {crs m : Nat} {mem : Words} {r : Registered}

@[simp] theorem Registered.mem_modules : m ∈ r.modules ↔ ∃ b, m ∈ r.list b := by
  unfold Registered.modules Registered.list
  simp [or_comm]

namespace ModuleLists

variable {b : Bool}

section

variable (h : ModuleLists crs mem r)

include h

theorem aligned_of_mem (hm : m ∈ r.list b) : Aligned m :=
  h.aligned m (Registered.mem_modules.2 ⟨b, hm⟩)

theorem ne_crs_of_mem (hm : m ∈ r.list b) : m ≠ crs := by
  rintro rfl
  exact h.notMem_crs (Registered.mem_modules.2 ⟨b, hm⟩)

theorem nodup_list (b : Bool) : (r.list b).Nodup := by
  obtain ⟨hauto, hmanual, -⟩ := List.nodup_append.mp h.nodup
  cases b with
  | true => exact hauto
  | false => exact hmanual

theorem notMem_of_mem {b b' : Bool} (hm : m ∈ r.list b) (hb : b' ≠ b) : m ∉ r.list b' := by
  obtain ⟨-, -, hdisj⟩ := List.nodup_append.mp h.nodup
  intro hm'
  cases b <;> cases b'
  · exact hb rfl
  · exact hdisj m hm' m hm rfl
  · exact hdisj m hm m hm' rfl
  · exact hb rfl

theorem ne_of_lists {b b' : Bool} {x y : Nat} (hb : b' ≠ b) (hx : x ∈ r.list b') (hy : y ∈ r.list b) : x ≠ y := by
  rintro rfl
  exact h.notMem_of_mem hy hb hx

theorem headModule_eq (b : Bool) : headModule mem crs b = (r.list b).headD 0 := by
  have hlinked := h.linked b
  cases hl : r.list b with
  | nil =>
    rw [hl] at hlinked
    exact hlinked.null_of_nil
  | cons a l =>
    rw [hl] at hlinked
    exact hlinked.head_eq

theorem ne_zero_of_mem (hm : m ∈ r.list b) : m ≠ 0 := by
  obtain ⟨last, hlinked⟩ := h.linked b
  exact hlinked.ne_null m hm

theorem linked_of_same {mem' : Words} (hhead : headModule mem' crs b = headModule mem crs b)
    (hn : ∀ x ∈ r.list b, nextModule mem' x = nextModule mem x)
    (hp : ∀ x ∈ r.list b, previousModule mem' x = previousModule mem x) :
    HalfCircular (nextModule mem') (previousModule mem') 0 (headModule mem' crs b) (r.list b) := by
  rw [hhead]
  exact (h.linked b).congr hn hp

end

theorem initCRS (hc : Aligned crs) : ModuleLists crs (initCRS mem crs) {} where
  aligned := by simp [Registered.list]
  notMem_crs := by simp [Registered.list]
  nodup := List.nodup_nil
  linked := by
    intro b
    have hhead : headModule (CROHelper.initCRS mem crs) crs b = 0 := by
      unfold headModule CROHelper.initCRS
      rw [nextModule_setPreviousModule hc hc, nextModule_setNextModule, previousModule_setPreviousModule]
      simp
    have hlist : (Registered.mk [] []).list b = [] := by cases b <;> rfl
    rw [hhead, hlist]
    exact HalfCircular.nil

private theorem register_nil (h : ModuleLists crs mem r) (hl : r.list b = []) : register mem m crs b =
      .ok (setNextModule (setHeadModule (setPreviousModule mem m m) crs b m) m 0) := by
  have hhead : headModule mem crs b = 0 := by
    rw [h.headModule_eq b, hl]
    rfl
  unfold register
  simp only [hhead, ne_eq, not_true_eq_false, if_false]

private theorem register_tail (h : ModuleLists crs mem r) (hl : r.list b ≠ []) : register mem m crs b =
      .ok (linkTail mem m (headModule mem crs b) (previousModule mem (headModule mem crs b))) := by
  obtain ⟨l', -, hnext⟩ := (h.linked b).exists_last hl
  have hhead : headModule mem crs b ≠ 0 := by
    rw [h.headModule_eq b]
    cases hb : r.list b with
    | nil => exact (hl hb).elim
    | cons a l => exact h.ne_zero_of_mem (by rw [hb]; exact List.mem_cons_self)
  unfold register
  simp only [ne_eq, hhead, not_false_eq_true, if_true, hnext]

theorem headModule_mem (h : ModuleLists crs mem r) (hl : r.list b ≠ []) : headModule mem crs b ∈ r.list b := by
  rw [h.headModule_eq b]
  cases hb : r.list b with
  | nil => exact (hl hb).elim
  | cons a l => exact List.mem_cons_self

theorem list_after_register (b b' : Bool) :
    (r.after (.register m b)).list b' = if b' = b then r.list b ++ [m] else r.list b' := by
  cases b <;> cases b' <;> rfl

private theorem of_register (h : ModuleLists crs mem r) {mem' : Words} (hm : Aligned m) (hcrs : m ≠ crs)
    (hnew : m ∉ r.modules)
    (hlist : HalfCircular (nextModule mem') (previousModule mem') 0 (headModule mem' crs b) (r.list b ++ [m]))
    (hother : ∀ b', b' ≠ b →
      HalfCircular (nextModule mem') (previousModule mem') 0 (headModule mem' crs b') (r.list b')) :
    ModuleLists crs mem' (r.after (.register m b)) where
  aligned := by
    intro x hx
    obtain ⟨b', hx⟩ := Registered.mem_modules.1 hx
    rw [list_after_register] at hx
    split at hx
    · rcases List.mem_append.mp hx with hx | hx
      · exact h.aligned_of_mem hx
      · rw [List.mem_singleton.mp hx]
        exact hm
    · exact h.aligned_of_mem hx
  notMem_crs := by
    intro hx
    obtain ⟨b', hx⟩ := Registered.mem_modules.1 hx
    rw [list_after_register] at hx
    split at hx
    · rcases List.mem_append.mp hx with hx | hx
      · exact h.ne_crs_of_mem hx rfl
      · exact hcrs (List.mem_singleton.mp hx).symm
    · exact h.ne_crs_of_mem hx rfl
  nodup := by
    have hnd : (m :: r.modules).Nodup := List.nodup_cons.mpr ⟨hnew, h.nodup⟩
    have hperm : (r.after (.register m b)).modules.Perm (m :: r.modules) := by
      cases b with
      | true =>
        show (r.autoLink ++ [m] ++ r.manual).Perm _
        rw [List.append_assoc, List.singleton_append]
        exact List.perm_middle
      | false =>
        show (r.autoLink ++ (r.manual ++ [m])).Perm _
        rw [← List.append_assoc]
        exact List.perm_append_singleton _ _
    exact hperm.nodup_iff.mpr hnd
  linked := by
    intro b'
    rw [list_after_register]
    split
    · rename_i hb
      rw [hb]
      exact hlist
    · rename_i hb
      exact hother b' hb

theorem register (h : ModuleLists crs mem r) (hc : Aligned crs) (hm : Aligned m) (hzero : m ≠ 0)
    (hcrs : m ≠ crs) (hnew : m ∉ r.modules) :
    ∃ mem', CROHelper.register mem m crs b = .ok mem' ∧ ModuleLists crs mem' (r.after (.register m b)) := by
  have hne : ∀ {b' x}, x ∈ r.list b' → x ≠ m := by
    rintro b' x hx rfl
    exact hnew (Registered.mem_modules.2 ⟨b', hx⟩)
  by_cases hl : r.list b = []
  · refine ⟨_, h.register_nil hl, h.of_register hm hcrs hnew ?_ ?_⟩
    · rw [hl, headModule_setNextModule hm hc hcrs.symm, headModule_setHeadModule hc, if_pos rfl, List.nil_append]
      apply HalfCircular.singleton hzero
      · rw [nextModule_setNextModule, if_pos rfl]
      · rw [previousModule_setNextModule hm hm, previousModule_setHeadModule hc hm hcrs,
          previousModule_setPreviousModule, if_pos rfl]
    · intro b' hb'
      apply h.linked_of_same
      · rw [headModule_setNextModule hm hc hcrs.symm, headModule_setHeadModule hc, if_neg hb',
          headModule_setPreviousModule hm hc hcrs.symm]
      · intro x hx
        have hxa := h.aligned_of_mem hx
        rw [nextModule_setNextModule, if_neg (hne hx), nextModule_setHeadModule hc hxa (h.ne_crs_of_mem hx),
          nextModule_setPreviousModule hm hxa]
      · intro x hx
        have hxa := h.aligned_of_mem hx
        rw [previousModule_setNextModule hm hxa, previousModule_setHeadModule hc hxa (h.ne_crs_of_mem hx),
          previousModule_setPreviousModule, if_neg (hne hx)]
  · have hhead := h.headModule_mem hl
    have htail : previousModule mem (headModule mem crs b) ∈ r.list b := by
      obtain ⟨l', hl', -⟩ := (h.linked b).exists_last hl
      rw [hl']
      simp
    have hha := h.aligned_of_mem hhead
    have hta := h.aligned_of_mem htail
    have hheads : ∀ b', headModule (linkTail mem m (headModule mem crs b) (previousModule mem (headModule mem crs b)))
        crs b' = headModule mem crs b' := fun b' =>
      headModule_linkTail hm hha hta hc hcrs.symm (h.ne_crs_of_mem hhead).symm (h.ne_crs_of_mem htail).symm
    refine ⟨_, h.register_tail hl, h.of_register hm hcrs hnew ?_ ?_⟩
    · rw [hheads]
      apply (h.linked b).push hl (h.nodup_list b) hzero
      · intro x hx
        rw [nextModule_linkTail hm hha (h.aligned_of_mem hx), if_neg (hne hx)]
      · rw [nextModule_linkTail hm hha hm, if_pos rfl]
      · intro x hx
        rw [previousModule_linkTail hm hta (h.aligned_of_mem hx), if_neg (hne hx)]
      · rw [previousModule_linkTail hm hta hm, if_neg (hne hhead).symm, if_pos rfl]
    · intro b' hb'
      apply h.linked_of_same (hheads b')
      · intro x hx
        rw [nextModule_linkTail hm hha (h.aligned_of_mem hx), if_neg (hne hx), if_neg (h.ne_of_lists hb' hx htail)]
      · intro x hx
        rw [previousModule_linkTail hm hta (h.aligned_of_mem hx), if_neg (h.ne_of_lists hb' hx hhead), if_neg (hne hx)]

theorem list_after_unregister (b : Bool) : (r.after (.unregister m)).list b = (r.list b).erase m := by
  cases b <;> rfl

section

variable (h : ModuleLists crs mem r)

include h

theorem headModule_ne {b b' : Bool} (hm : m ∈ r.list b) (hb : b' ≠ b) : headModule mem crs b' ≠ m := by
  by_cases hl : r.list b' = []
  · rw [h.headModule_eq b', hl]
    exact (h.ne_zero_of_mem hm).symm
  · rintro rfl
    exact h.notMem_of_mem hm hb (h.headModule_mem hl)

private theorem of_unregister {mem' : Words} (l₁ l₂ : List Nat) (hl : r.list b = l₁ ++ m :: l₂)
    (hlist : HalfCircular (nextModule mem') (previousModule mem') 0 (headModule mem' crs b) (l₁ ++ l₂))
    (hhead : ∀ b', b' ≠ b → headModule mem' crs b' = headModule mem crs b')
    (hn : ∀ b', b' ≠ b → ∀ x ∈ r.list b', nextModule mem' x = nextModule mem x)
    (hp : ∀ b', b' ≠ b → ∀ x ∈ r.list b', previousModule mem' x = previousModule mem x) :
    ModuleLists crs mem' (r.after (.unregister m)) where
  aligned := by
    intro x hx
    obtain ⟨b', hx⟩ := Registered.mem_modules.1 hx
    rw [list_after_unregister] at hx
    exact h.aligned_of_mem (List.mem_of_mem_erase hx)
  notMem_crs := by
    intro hx
    obtain ⟨b', hx⟩ := Registered.mem_modules.1 hx
    rw [list_after_unregister] at hx
    exact h.ne_crs_of_mem (List.mem_of_mem_erase hx) rfl
  nodup := by
    have hsub : (r.after (.unregister m)).modules.Sublist r.modules :=
      List.Sublist.append List.erase_sublist List.erase_sublist
    exact List.Nodup.sublist hsub h.nodup
  linked := by
    intro b'
    rw [list_after_unregister]
    by_cases hb : b' = b
    · have hnot : m ∉ l₁ := by
        have hnd := h.nodup_list b
        rw [hl] at hnd
        exact fun hmem => (List.nodup_append.mp hnd).2.2 m hmem m List.mem_cons_self rfl
      rw [hb, hl, List.erase_append_right _ hnot, List.erase_cons_head]
      exact hlist
    · have hmem : m ∈ r.list b := by
        rw [hl]
        simp
      rw [List.erase_of_not_mem (h.notMem_of_mem hmem hb)]
      exact h.linked_of_same (hhead b' hb) (hn b' hb) (hp b' hb)

private theorem unregister_first (hm : m ∈ r.list b)
    (hhead : headModule mem crs b = m) : unregister mem m crs = .ok (unlinkSelf (setHeadModule
      (if nextModule mem m ≠ 0 then setPreviousModule mem (nextModule mem m) (previousModule mem m) else mem)
        crs b (nextModule mem m)) m) := by
  unfold unregister
  cases b with
  | true =>
    have hfirst : nextModule mem crs = m := hhead
    have hother : previousModule mem crs ≠ m := h.headModule_ne hm Bool.false_ne_true
    simp only [hfirst, true_or, if_true, hother.symm, if_false]
  | false =>
    have hfirst : previousModule mem crs = m := hhead
    simp only [hfirst, or_true, if_true]

private theorem not_head (hm : m ∈ r.list b) (hhead : headModule mem crs b ≠ m) :
    ¬ (m = nextModule mem crs ∨ m = previousModule mem crs) := by
  have hheads : ∀ b', headModule mem crs b' ≠ m := by
    intro b'
    by_cases hb : b' = b
    · rw [hb]
      exact hhead
    · exact h.headModule_ne hm hb
  rintro (hfirst | hfirst)
  · exact hheads true hfirst.symm
  · exact hheads false hfirst.symm

private theorem unregister_middle (hm : m ∈ r.list b)
    (hhead : headModule mem crs b ≠ m) (hnext : nextModule mem m ≠ 0) :
    unregister mem m crs = .ok (unlinkSelf (setPreviousModule
      (setNextModule mem (previousModule mem m) (nextModule mem m)) (nextModule mem m) (previousModule mem m)) m) := by
  unfold unregister
  simp only [h.not_head hm hhead, if_false, ne_eq, hnext, not_false_eq_true, if_true]

private theorem unregister_last (hm : m ∈ r.list b)
    (hhead : headModule mem crs b ≠ m) (hnext : nextModule mem m = 0) (hprev : Aligned (previousModule mem m))
    (hlast : previousModule mem (headModule mem crs b) = m) :
    unregister mem m crs = .ok (unlinkSelf (setPreviousModule
      (setNextModule mem (previousModule mem m) 0) (headModule mem crs b) (previousModule mem m)) m) := by
  have hl : r.list b ≠ [] := List.ne_nil_of_mem hm
  have hmem := h.headModule_mem hl
  have hread : ∀ b', r.list b' ≠ [] → previousModule (setNextModule mem (previousModule mem m) 0)
      (headModule mem crs b') = previousModule mem (headModule mem crs b') := fun b' hb' =>
    previousModule_setNextModule hprev (h.aligned_of_mem (h.headModule_mem hb'))
  unfold unregister
  simp only [h.not_head hm hhead, if_false, ne_eq, hnext, not_true_eq_false]
  cases b with
  | true =>
    have hnz : ¬ nextModule mem crs = 0 := h.ne_zero_of_mem hmem
    have htail : previousModule (setNextModule mem (previousModule mem m) 0) (nextModule mem crs) = m :=
      (hread true hl).trans hlast
    simp only [hnz, not_false_eq_true, htail, and_self, if_true]
    rfl
  | false =>
    have hnz : ¬ previousModule mem crs = 0 := h.ne_zero_of_mem hmem
    have htail : previousModule (setNextModule mem (previousModule mem m) 0) (previousModule mem crs) = m :=
      (hread false hl).trans hlast
    -- the tail of the auto-link modules is another module
    have hother : ¬ (¬ nextModule mem crs = 0 ∧
        previousModule (setNextModule mem (previousModule mem m) 0) (nextModule mem crs) = m) := by
      rintro ⟨hnz', htail'⟩
      have hl' : r.list true ≠ [] := by
        intro hnil
        apply hnz'
        have hzero := h.headModule_eq true
        rw [hnil] at hzero
        exact hzero
      have htail'' : previousModule mem (headModule mem crs true) = m := (hread true hl').symm.trans htail'
      obtain ⟨l', hl'', -⟩ := (h.linked true).exists_last hl'
      apply h.notMem_of_mem hm Bool.false_ne_true.symm
      rw [hl'', htail'']
      simp
    rw [if_neg hother]
    simp only [hnz, not_false_eq_true, htail, and_self, if_true]
    rfl

private theorem mem_rest (l₁ l₂ : List Nat) (hl : r.list b = l₁ ++ m :: l₂)
    {x : Nat} (hx : x ∈ l₁ ++ l₂) : x ∈ r.list b ∧ x ≠ m := by
  have hnd := h.nodup_list b
  rw [hl] at hnd ⊢
  obtain ⟨hnot, -⟩ := List.nodup_cons.mp (List.perm_middle.nodup_iff.mp hnd)
  refine ⟨?_, ?_⟩
  · exact List.perm_middle.mem_iff.mpr (List.mem_cons_of_mem _ hx)
  · rintro rfl
    exact hnot hx

private theorem nodup_rest (l₁ l₂ : List Nat) (hl : r.list b = l₁ ++ m :: l₂) : (l₁ ++ l₂).Nodup := by
  have hnd := h.nodup_list b
  rw [hl] at hnd
  exact (List.nodup_cons.mp (List.perm_middle.nodup_iff.mp hnd)).2

private theorem unregister_nil (hc : Aligned crs) {l : List Nat} (hl : r.list b = m :: l) :
    ∃ mem', CROHelper.unregister mem m crs = .ok mem' ∧ ModuleLists crs mem' (r.after (.unregister m)) := by
  have hm : m ∈ r.list b := by
    rw [hl]
    exact List.mem_cons_self
  have hma := h.aligned_of_mem hm
  have hmc := h.ne_crs_of_mem hm
  have hlinked := h.linked b
  rw [hl] at hlinked
  have hhead := hlinked.head_eq
  -- the next module, when there is one, is the new head
  have hnext : nextModule mem m = 0 ∧ l = [] ∨ nextModule mem m ∈ l := by
    obtain ⟨last, -, -, -, hs⟩ := hlinked
    cases l with
    | nil => exact Or.inl ⟨hs.1, rfl⟩
    | cons a l =>
      rw [hs.1]
      exact Or.inr List.mem_cons_self
  have hnz : nextModule mem m ∈ l → nextModule mem m ≠ 0 := fun hmem =>
    h.ne_zero_of_mem (h.mem_rest [] l hl hmem).1
  obtain ⟨mem₁, hmem₁⟩ : ∃ mem₁, mem₁ = (if nextModule mem m ≠ 0 then
      setPreviousModule mem (nextModule mem m) (previousModule mem m) else mem) := ⟨_, rfl⟩
  have hn₁ : ∀ x, Aligned x → nextModule mem₁ x = nextModule mem x := by
    intro x hx
    rw [hmem₁]
    rcases hnext with ⟨hzero, -⟩ | hmem
    · rw [if_neg (not_not.mpr hzero)]
    · rw [if_pos (hnz hmem), nextModule_setPreviousModule (h.aligned_of_mem (h.mem_rest [] l hl hmem).1) hx]
  have hp₁ : ∀ x, x ≠ 0 → previousModule mem₁ x =
      if x = nextModule mem m then previousModule mem m else previousModule mem x := by
    intro x hx
    rw [hmem₁]
    rcases hnext with ⟨hzero, -⟩ | hmem
    · rw [if_neg (not_not.mpr hzero), hzero, if_neg hx]
    · rw [if_pos (hnz hmem), previousModule_setPreviousModule]
  have hcrs₁ : ∀ b', headModule mem₁ crs b' = headModule mem crs b' := by
    intro b'
    rw [hmem₁]
    rcases hnext with ⟨hzero, -⟩ | hmem
    · rw [if_neg (not_not.mpr hzero)]
    · obtain ⟨hin, -⟩ := h.mem_rest [] l hl hmem
      rw [if_pos (hnz hmem), headModule_setPreviousModule (h.aligned_of_mem hin) hc (h.ne_crs_of_mem hin).symm]
  refine ⟨_, h.unregister_first hm hhead, ?_⟩
  rw [← hmem₁]
  have hn : ∀ x, Aligned x → x ≠ m → x ≠ crs →
      nextModule (unlinkSelf (setHeadModule mem₁ crs b (nextModule mem m)) m) x = nextModule mem x := by
    intro x hx hxm hxc
    rw [nextModule_unlinkSelf hma hx hxm, nextModule_setHeadModule hc hx hxc, hn₁ x hx]
  have hp : ∀ x, Aligned x → x ≠ m → x ≠ crs → x ≠ 0 →
      previousModule (unlinkSelf (setHeadModule mem₁ crs b (nextModule mem m)) m) x =
        if x = nextModule mem m then previousModule mem m else previousModule mem x := by
    intro x hx hxm hxc hxz
    rw [previousModule_unlinkSelf hma hx hxm, previousModule_setHeadModule hc hx hxc, hp₁ x hxz]
  apply h.of_unregister [] l hl
  · rw [headModule_unlinkSelf hma hc hmc.symm, headModule_setHeadModule hc, if_pos rfl]
    apply hlinked.eraseHead (h.nodup_rest [] l hl)
    · intro x hx
      obtain ⟨hin, hxm⟩ := h.mem_rest [] l hl hx
      exact hn x (h.aligned_of_mem hin) hxm (h.ne_crs_of_mem hin)
    · intro x hx
      obtain ⟨hin, hxm⟩ := h.mem_rest [] l hl hx
      exact hp x (h.aligned_of_mem hin) hxm (h.ne_crs_of_mem hin) (h.ne_zero_of_mem hin)
  · intro b' hb
    rw [headModule_unlinkSelf hma hc hmc.symm, headModule_setHeadModule hc, if_neg hb, hcrs₁]
  · intro b' hb x hx
    exact hn x (h.aligned_of_mem hx) (h.ne_of_lists hb hx hm) (h.ne_crs_of_mem hx)
  · intro b' hb x hx
    rw [hp x (h.aligned_of_mem hx) (h.ne_of_lists hb hx hm) (h.ne_crs_of_mem hx) (h.ne_zero_of_mem hx)]
    rcases hnext with ⟨hzero, -⟩ | hmem
    · rw [hzero, if_neg (h.ne_zero_of_mem hx)]
    · rw [if_neg (h.ne_of_lists hb hx (h.mem_rest [] l hl hmem).1)]

private theorem unregister_cons (hc : Aligned crs) {l₁ l₂ : List Nat}
    (hl : r.list b = l₁ ++ m :: l₂) (h₁ : l₁ ≠ []) :
    ∃ mem', CROHelper.unregister mem m crs = .ok mem' ∧ ModuleLists crs mem' (r.after (.unregister m)) := by
  have hm : m ∈ r.list b := by
    rw [hl]
    simp
  have hma := h.aligned_of_mem hm
  have hmc := h.ne_crs_of_mem hm
  have hlinked := h.linked b
  rw [hl] at hlinked
  obtain ⟨l', hl₁, hl₂⟩ := hlinked.around h₁
  have hhead : headModule mem crs b ∈ l₁ := by
    cases l₁ with
    | nil => exact (h₁ rfl).elim
    | cons a l =>
      rw [h.headModule_eq b, hl]
      exact List.mem_cons_self
  have hprev : previousModule mem m ∈ l₁ := by
    rw [hl₁]
    simp
  obtain ⟨hhin, hhm⟩ := h.mem_rest l₁ l₂ hl (List.mem_append_left _ hhead)
  obtain ⟨hpin, hpm⟩ := h.mem_rest l₁ l₂ hl (List.mem_append_left _ hprev)
  have hpa := h.aligned_of_mem hpin
  -- the module whose previous field is written
  have hwrite : ∀ (v w : Nat), v ∈ r.list b →
      let mem' := unlinkSelf (setPreviousModule (setNextModule mem (previousModule mem m) w) v (previousModule mem m)) m
      (∀ b', headModule mem' crs b' = headModule mem crs b') ∧
      (∀ b' x, x ∈ r.list b' → x ≠ m → nextModule mem' x = if x = previousModule mem m then w else nextModule mem x) ∧
      (∀ b' x, x ∈ r.list b' → x ≠ m →
        previousModule mem' x = if x = v then previousModule mem m else previousModule mem x) := by
    intro v w hv
    have hva := h.aligned_of_mem hv
    refine ⟨?_, ?_, ?_⟩
    · intro b'
      rw [headModule_unlinkSelf hma hc hmc.symm, headModule_setPreviousModule hva hc (h.ne_crs_of_mem hv).symm,
        headModule_setNextModule hpa hc (h.ne_crs_of_mem hpin).symm]
    · intro b' x hx hxm
      have hxa := h.aligned_of_mem hx
      rw [nextModule_unlinkSelf hma hxa hxm, nextModule_setPreviousModule hva hxa, nextModule_setNextModule]
    · intro b' x hx hxm
      have hxa := h.aligned_of_mem hx
      rw [previousModule_unlinkSelf hma hxa hxm, previousModule_setPreviousModule, previousModule_setNextModule hpa hxa]
  rcases hl₂ with ⟨rfl, hnext⟩ | ⟨l'', hl₂, hnext⟩
  · obtain ⟨hheads, hn, hp⟩ := hwrite (headModule mem crs b) 0 hhin
    have hlast : previousModule mem (headModule mem crs b) = m := by
      obtain ⟨l₃, hl₃, -⟩ := hlinked.exists_last (by simp)
      have hsingle := List.append_inj_right' hl₃ rfl
      exact (List.singleton_inj.mp hsingle).symm
    refine ⟨_, h.unregister_last hm hhm hnext hpa hlast, h.of_unregister l₁ [] hl ?_ ?_ ?_ ?_⟩
    · rw [hheads, List.append_nil]
      have hnd := h.nodup_rest l₁ [] hl
      rw [List.append_nil] at hnd
      apply hlinked.eraseLast hnd h₁
      · intro x hx
        obtain ⟨hin, hxm⟩ := h.mem_rest l₁ [] hl (List.mem_append_left _ hx)
        exact hn b x hin hxm
      · intro x hx
        obtain ⟨hin, hxm⟩ := h.mem_rest l₁ [] hl (List.mem_append_left _ hx)
        exact hp b x hin hxm
    · intro b' hb
      exact hheads b'
    · intro b' hb x hx
      rw [hn b' x hx (h.ne_of_lists hb hx hm), if_neg (h.ne_of_lists hb hx hpin)]
    · intro b' hb x hx
      rw [hp b' x hx (h.ne_of_lists hb hx hm), if_neg (h.ne_of_lists hb hx hhin)]
  · have hnext' : nextModule mem m ∈ l₂ := by
      rw [hl₂]
      simp
    obtain ⟨hnin, -⟩ := h.mem_rest l₁ l₂ hl (List.mem_append_right _ hnext')
    obtain ⟨hheads, hn, hp⟩ := hwrite (nextModule mem m) (nextModule mem m) hnin
    refine ⟨_, h.unregister_middle hm hhm hnext, h.of_unregister l₁ l₂ hl ?_ ?_ ?_ ?_⟩
    · rw [hheads]
      apply hlinked.eraseMiddle (h.nodup_rest l₁ l₂ hl) h₁ (List.ne_nil_of_mem hnext')
      · intro x hx
        obtain ⟨hin, hxm⟩ := h.mem_rest l₁ l₂ hl hx
        exact hn b x hin hxm
      · intro x hx
        obtain ⟨hin, hxm⟩ := h.mem_rest l₁ l₂ hl hx
        exact hp b x hin hxm
    · intro b' hb
      exact hheads b'
    · intro b' hb x hx
      rw [hn b' x hx (h.ne_of_lists hb hx hm), if_neg (h.ne_of_lists hb hx hpin)]
    · intro b' hb x hx
      rw [hp b' x hx (h.ne_of_lists hb hx hm), if_neg (h.ne_of_lists hb hx hnin)]

theorem unregister (hc : Aligned crs) (hmod : m ∈ r.modules) :
    ∃ mem', CROHelper.unregister mem m crs = .ok mem' ∧ ModuleLists crs mem' (r.after (.unregister m)) := by
  obtain ⟨b, hm⟩ := Registered.mem_modules.1 hmod
  obtain ⟨l₁, l₂, hl⟩ := List.append_of_mem hm
  by_cases h₁ : l₁ = []
  · rw [h₁] at hl
    exact h.unregister_nil hc hl
  · exact h.unregister_cons hc hl h₁

theorem other {write : Words → Words} (hw : Permitted crs r (.other write)) : ModuleLists crs (write mem) r where
  aligned := h.aligned
  notMem_crs := h.notMem_crs
  nodup := h.nodup
  linked := by
    intro b
    apply h.linked_of_same
    · obtain ⟨hnext, hprevious⟩ := hw mem crs List.mem_cons_self
      unfold headModule
      rw [hnext, hprevious]
    · intro x hx
      exact (hw mem x (List.mem_cons_of_mem _ (Registered.mem_modules.2 ⟨b, hx⟩))).1
    · intro x hx
      exact (hw mem x (List.mem_cons_of_mem _ (Registered.mem_modules.2 ⟨b, hx⟩))).2

theorem exec (hc : Aligned crs) {op : Op} (hop : Permitted crs r op) :
    ∃ mem', exec crs mem op = .ok mem' ∧ ModuleLists crs mem' (r.after op) := by
  cases op with
  | register m b =>
    obtain ⟨hm, hzero, hcrs, hnew⟩ := hop
    exact h.register hc hm hzero hcrs hnew
  | unregister m => exact h.unregister hc hop
  | other write => exact ⟨write mem, rfl, h.other hop⟩

theorem foldlM (hc : Aligned crs) {ops : List Op} (hops : PermittedRun crs r ops) :
    ∃ mem', ops.foldlM (CROHelper.exec crs) mem = .ok mem' ∧ ModuleLists crs mem' (ops.foldl Registered.after r) := by
  induction ops generalizing mem r with
  | nil => exact ⟨mem, rfl, h⟩
  | cons op ops ih =>
    obtain ⟨hop, hops⟩ := hops
    obtain ⟨mem₁, hexec, h₁⟩ := h.exec hc hop
    obtain ⟨mem₂, hrun, h₂⟩ := ih h₁ hops
    refine ⟨mem₂, ?_, h₂⟩
    rw [List.foldlM_cons, hexec]
    exact hrun

end

end ModuleLists

end Registration

section Lists

variable {mem : Words} {crs : Nat}

private theorem reaches_of_linkedSegment {p s q : Nat} {l : List Nat}
    (h : LinkedSegment (nextModule mem) (previousModule mem) 0 p s l q 0) : Reaches mem s l := by
  induction l generalizing p s with
  | nil => exact h.1
  | cons a l ih =>
    obtain ⟨hs, ha, -, h⟩ := h
    exact ⟨hs, ha, ih h⟩

theorem linkedModules_of_halfCircular {start : Nat} {l : List Nat}
    (h : HalfCircular (nextModule mem) (previousModule mem) 0 start l) : LinkedModules mem start l := by
  have hlast : ∀ tail, l.getLast? = some tail → tail = previousModule mem start ∧ nextModule mem tail = 0 := by
    intro tail htail
    have hne : l ≠ [] := by
      rintro rfl
      cases htail
    obtain ⟨l', hl, hnext⟩ := h.exists_last hne
    rw [hl, List.getLast?_concat, Option.some_inj] at htail
    rw [← htail]
    exact ⟨rfl, hnext⟩
  obtain ⟨last, hs⟩ := h
  constructor
  · exact reaches_of_linkedSegment hs
  · intro head tail hhead htail
    have hstart : start = head := by
      cases l with
      | nil => cases hhead
      | cons a l =>
        rw [List.head?_cons, Option.some_inj] at hhead
        rw [← hhead]
        exact hs.1
    rw [(hlast tail htail).1, hstart]
  · exact hs.isChain_prev
  · intro tail htail
    exact (hlast tail htail).2

/-- After every run no assertion has failed, and the static module leads to the auto-link modules by its next field and
to the manual ones by its previous field, both in the order of registration. -/
theorem run_linkedModules (hc : Aligned crs) (mem : Words) (ops : List Op) (hops : PermittedRun crs {} ops) :
    ∃ mem', run crs mem ops = .ok mem' ∧
      LinkedModules mem' (nextModule mem' crs) (ops.foldl Registered.after {}).autoLink ∧
      LinkedModules mem' (previousModule mem' crs) (ops.foldl Registered.after {}).manual := by
  have hinit : ModuleLists crs (initCRS mem crs) {} := ModuleLists.initCRS hc
  obtain ⟨mem', hrun, h⟩ := hinit.foldlM hc hops
  refine ⟨mem', hrun, ?_, ?_⟩
  · exact linkedModules_of_halfCircular (h.linked true)
  · exact linkedModules_of_halfCircular (h.linked false)

def sampleOps : List Op :=
  [.register 0x1000 true, .register 0x2000 false, .register 0x3000 true, .register 0x4000 false,
    .unregister 0x1000, .other id, .unregister 0x4000, .register 0x1000 false]

theorem sampleOps_linkedModules :
    PermittedRun 0x10000 {} sampleOps ∧
    sampleOps.foldl Registered.after {} = ⟨[0x3000], [0x2000, 0x1000]⟩ ∧
    ∃ mem', run 0x10000 (fun _ => 7) sampleOps = .ok mem' ∧
      LinkedModules mem' (nextModule mem' 0x10000) [0x3000] ∧
      LinkedModules mem' (previousModule mem' 0x10000) [0x2000, 0x1000] := by
  have hops : PermittedRun 0x10000 {} sampleOps := by
    unfold sampleOps
    simp [PermittedRun, Permitted, Registered.after, Registered.list, Aligned]
  exact ⟨hops, rfl, run_linkedModules (by decide) (fun _ => 7) sampleOps hops⟩

end Lists

end SweepDSEmu.CROHelper
