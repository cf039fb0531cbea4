import Mathlib.Data.List.Flatten
import SweepDSEmu.StreetPass.CecFiles

/-!
# Bounds of the StreetPass file checks

A check stays inside the file, its arrays and the messages exactly when the file has a header, the boxes or messages
that it lists fit the array behind those that the header counts already, and the messages have what is copied of them.
-/

namespace SweepDSEmu.StreetPass

variable {headerSize slot offset num : Nat} {slots file : Bytes} {texts : List Bytes}

theorem copyOut_of_le {buffer : Bytes} {offset size : Nat} (h : offset + size ≤ buffer.length) :
    copyOut buffer offset size = some ((buffer.drop offset).take size) := if_pos h

theorem copyOut_of_lt {buffer : Bytes} {offset size : Nat} (h : buffer.length < offset + size) :
    copyOut buffer offset size = none := if_neg (Nat.not_le_of_lt h)

theorem copyIn_of_le {buffer bytes : Bytes} {offset : Nat} (h : offset + bytes.length ≤ buffer.length) :
    copyIn buffer offset bytes = some (place buffer offset bytes) := if_pos h

theorem copyIn_of_lt {buffer bytes : Bytes} {offset : Nat} (h : buffer.length < offset + bytes.length) :
    copyIn buffer offset bytes = none := if_neg (Nat.not_le_of_lt h)

/-! ### Messages -/

def part (slot offset : Nat) (message : Bytes) : Bytes := (message.drop offset).take slot

def SlotsInside (slot offset num : Nat) (texts : List Bytes) : Prop :=
  (∀ m ∈ texts, offset + slot ≤ m.length) ∧
    if texts = [] then num * slot % 2 ^ 32 ≤ 8 * slot else num + texts.length ≤ 8

instance : Decidable (SlotsInside slot offset num texts) := inferInstanceAs (Decidable (_ ∧ _))

private theorem collect_eq (hslot : 0 < slot) (hslots : slots.length = 8 * slot) :
    collect slot offset slots num texts =
      if (∀ m ∈ texts, offset + slot ≤ m.length) ∧ (texts = [] ∨ num + texts.length ≤ 8) then
        some (place slots (num * slot) (texts.flatMap (part slot offset)), num + texts.length)
      else none := by
  induction texts generalizing slots num with
  | nil => simp [collect, place_nil]
  | cons m texts ih =>
    unfold collect
    by_cases hm : offset + slot ≤ m.length
    · have hpart : (part slot offset m).length = slot := by
        simp only [part, List.length_take, List.length_drop]
        omega
      rw [copyOut_of_le hm, Option.bind_eq_bind, Option.bind_some]
      by_cases hnum : num + 1 ≤ 8
      · have hfits : num * slot + (part slot offset m).length ≤ slots.length := by
          rw [hpart, hslots, ← Nat.succ_mul]
          exact Nat.mul_le_mul_right slot hnum
        have hnext : (num + 1) * slot = num * slot + (part slot offset m).length := by rw [hpart, Nat.succ_mul]
        change (copyIn slots (num * slot) (part slot offset m)).bind _ = _
        rw [copyIn_of_le hfits, Option.bind_some, Nat.mod_eq_of_lt (by omega), ih ((length_place hfits).trans hslots),
          hnext, place_place hfits, List.flatMap_cons, List.length_cons, Nat.add_assoc, Nat.add_comm 1]
        refine if_congr ?_ rfl rfl
        simp only [List.mem_cons, forall_eq_or_imp, hm, true_and, reduceCtorEq, false_or]
        refine and_congr_right fun _ => ⟨?_, .inr⟩
        rintro (rfl | hle)
        · exact hnum
        · exact hle
      · have hlt : slots.length < num * slot + (part slot offset m).length := by
          rw [hpart, hslots, ← Nat.succ_mul]
          exact Nat.mul_lt_mul_of_pos_right (by omega) hslot
        change (copyIn slots (num * slot) (part slot offset m)).bind _ = _
        rw [copyIn_of_lt hlt, Option.bind_none, if_neg]
        rintro ⟨-, hle⟩
        simp only [reduceCtorEq, false_or, List.length_cons] at hle
        omega
    · rw [copyOut_of_lt (by omega), Option.bind_eq_bind, Option.bind_none, if_neg]
      rintro ⟨hall, -⟩
      exact hm (hall m List.mem_cons_self)

private theorem putSlots_eq {header : Bytes} (hslots : slots.length = 8 * slot) (hfile : header.length ≤ file.length) :
    ((putSlots header.length slot slots num file).bind fun file => copyIn file 0 header) =
      if num * slot % 2 ^ 32 ≤ 8 * slot then
        some (header ++ if num = 0 then file.drop header.length else slots.take (num * slot % 2 ^ 32))
      else none := by
  unfold putSlots
  rcases Nat.eq_zero_or_pos num with rfl | hnum
  · rw [if_neg (Nat.lt_irrefl 0), Option.bind_some, copyIn_of_le (by omega), place_zero, Nat.zero_mul, if_pos rfl,
      if_pos (show 0 % 2 ^ 32 ≤ 8 * slot from Nat.zero_le _)]
  · have hne : ¬ num = 0 := by omega
    rw [if_pos hnum, if_neg hne]
    dsimp only
    generalize num * slot % 2 ^ 32 = size
    by_cases hsize : size ≤ 8 * slot
    · have hbytes : (slots.take size).length = size := by
        rw [List.length_take]
        omega
      have hresized := length_resize file (header.length + size)
      have hplaced : header.length + (slots.take size).length ≤ (resize file (header.length + size)).length := by
        omega
      have hfront : ((resize file (header.length + size)).take header.length).length = header.length := by
        rw [List.length_take]
        omega
      rw [if_pos hsize, copyOut_of_le (by omega), List.drop_zero, Option.bind_eq_bind, Option.bind_some,
        copyIn_of_le hplaced, Option.bind_some, copyIn_of_le (by rw [length_place hplaced]; omega), place_zero]
      congr 2
      rw [place, List.append_assoc, List.drop_left' hfront, List.drop_eq_nil_of_le (by omega), List.append_nil]
    · rw [if_neg hsize, copyOut_of_lt (by omega)]
      rfl

theorem length_parts (hall : ∀ m ∈ texts, offset + slot ≤ m.length) :
    (texts.flatMap (part slot offset)).length = texts.length * slot := by
  induction texts with
  | nil => simp
  | cons m texts ih =>
    have hm := hall m List.mem_cons_self
    have hpart : (part slot offset m).length = slot := by
      simp only [part, List.length_take, List.length_drop]
      omega
    rw [List.flatMap_cons, List.length_append, ih fun m hm => hall m (List.mem_cons_of_mem _ hm), hpart,
      List.length_cons, Nat.succ_mul, Nat.add_comm]

/-- The file behind its header, when messages have been copied behind `num` others. -/
def listed (headerSize slot offset : Nat) (slots : Bytes) (num : Nat) (texts : List Bytes) (file : Bytes) : Bytes :=
  if num + texts.length = 0 then file.drop headerSize
  else (place slots (num * slot) (texts.flatMap (part slot offset))).take ((num + texts.length) * slot % 2 ^ 32)

theorem listMessages_eq (offset num : Nat) (texts : List Bytes) (hslot : 0 < slot) (hslots : slots.length = 8 * slot)
    (header : Nat → Bytes) (hheader : ∀ n, (header n).length = headerSize) (hfile : headerSize ≤ file.length) :
    ((collect slot offset slots num texts).bind fun r => (putSlots headerSize slot r.1 r.2 file).bind fun file =>
        copyIn file 0 (header r.2)) =
      if SlotsInside slot offset num texts then
        some (header (num + texts.length) ++ listed headerSize slot offset slots num texts file)
      else none := by
  rw [collect_eq hslot hslots]
  by_cases hcollect : (∀ m ∈ texts, offset + slot ≤ m.length) ∧ (texts = [] ∨ num + texts.length ≤ 8)
  · obtain ⟨hall, hnum⟩ := hcollect
    have hparts := length_parts hall
    have hplaced : (place slots (num * slot) (texts.flatMap (part slot offset))).length = 8 * slot := by
      rcases hnum with rfl | hnum
      · rw [List.flatMap_nil, place_nil, hslots]
      · rw [length_place, hslots]
        rw [hparts, hslots, ← Nat.add_mul]
        exact Nat.mul_le_mul_right slot hnum
    have hheader' := hheader (num + texts.length)
    rw [if_pos ⟨hall, hnum⟩, Option.bind_some, ← hheader', putSlots_eq hplaced (by omega)]
    refine if_congr ?_ rfl rfl
    unfold SlotsInside
    rw [and_iff_right hall]
    rcases hnum with rfl | hnum
    · rw [if_pos rfl, List.length_nil, Nat.add_zero]
    · have hle : (num + texts.length) * slot ≤ 8 * slot := Nat.mul_le_mul_right slot hnum
      refine iff_of_true ((Nat.mod_le _ _).trans hle) ?_
      split_ifs with hnil
      · rw [hnil, List.length_nil, Nat.add_zero] at hle
        exact (Nat.mod_le _ _).trans hle
      · exact hnum
  · rw [if_neg hcollect, Option.bind_none, if_neg]
    rintro ⟨hall, hnum⟩
    refine hcollect ⟨hall, ?_⟩
    by_cases hnil : texts = []
    · exact .inl hnil
    · rw [if_neg hnil] at hnum
      exact .inr hnum

theorem length_uninitialized (garbage : Nat → UInt8) (slot : Nat) : (uninitialized garbage slot).length = 8 * slot := by
  simp [uninitialized]

/-- The number from which the messages are counted. -/
def outboxStart (size : Nat) (h : CecBoxInfoHeader) : Nat := if h.boxInfoSize = size then h.messageNum else 0

def readMessages (h : CecBoxInfoHeader) (outbox : List (Name × Bytes)) : List Bytes :=
  messages (outbox.take ((h.maxMessageNum + 2) % 2 ^ 32))

@[simp]
theorem messageNum_checkOutboxInfo (size : Nat) (h : CecBoxInfoHeader) :
    (checkOutboxInfo size h).messageNum = outboxStart size h := by
  unfold checkOutboxInfo outboxStart checkBoxInfo
  split_ifs <;> simp_all

@[simp]
theorem maxMessageNum_checkOutboxInfo (size : Nat) (h : CecBoxInfoHeader) :
    (checkOutboxInfo size h).maxMessageNum = h.maxMessageNum := by
  unfold checkOutboxInfo checkBoxInfo
  split_ifs <;> rfl

variable (garbage : Nat → UInt8) (outbox : List (Name × Bytes))

/-- The header that is written when the messages have been counted. -/
def outboxHeader (size : Nat) (h : CecBoxInfoHeader) (num : Nat) : CecBoxInfoHeader :=
  { checkOutboxInfo size h with
    messageNum := num
    boxInfoSize := ((checkOutboxInfo size h).boxInfoSize + num * messageHeaderSize % 2 ^ 32) % 2 ^ 32 }

theorem updateOutboxInfo_eq {h : CecBoxInfoHeader} (hh : CecBoxInfoHeader.read (file.take boxHeaderSize) = h)
    (hfile : boxHeaderSize ≤ file.length) :
    updateOutboxInfo garbage outbox file =
      if SlotsInside messageHeaderSize 0 (outboxStart file.length h) (readMessages h outbox) then
        some ((outboxHeader file.length h (outboxStart file.length h + (readMessages h outbox).length)).write ++
          listed boxHeaderSize messageHeaderSize 0 (uninitialized garbage messageHeaderSize)
            (outboxStart file.length h) (readMessages h outbox) file)
      else none := by
  have heq := listMessages_eq 0 (outboxStart file.length h) (readMessages h outbox) (by decide)
    (length_uninitialized garbage messageHeaderSize) (fun n => (outboxHeader file.length h n).write)
    (fun n => (outboxHeader file.length h n).length_write) hfile
  rw [← heq]
  unfold updateOutboxInfo outboxHeader readMessages
  rw [copyOut_of_le (by omega), List.drop_zero, Option.bind_eq_bind, Option.bind_some, hh]
  simp only [messageNum_checkOutboxInfo, maxMessageNum_checkOutboxInfo, Option.bind_eq_bind]

theorem CecOBIndexHeader.length_write (h : CecOBIndexHeader) : h.write.length = obIndexHeaderSize := by
  simp [CecOBIndexHeader.write, obIndexHeaderSize]

theorem updateOutboxIndex_eq {h : CecOBIndexHeader} (hh : CecOBIndexHeader.read (file.take obIndexHeaderSize) = h)
    (hfile : obIndexHeaderSize ≤ file.length) :
    updateOutboxIndex garbage outbox file =
      if SlotsInside 8 0x20 (indexStart (file.length % 2 ^ 32) h.messageNum) (messages (outbox.take 8)) then
        some ((CecOBIndexHeader.write { h with
            magic := 0x6767
            messageNum := indexStart (file.length % 2 ^ 32) h.messageNum + (messages (outbox.take 8)).length }) ++
          listed obIndexHeaderSize 8 0x20 (uninitialized garbage 8) (indexStart (file.length % 2 ^ 32) h.messageNum)
            (messages (outbox.take 8)) file)
      else none := by
  have heq := listMessages_eq 0x20 (indexStart (file.length % 2 ^ 32) h.messageNum) (messages (outbox.take 8))
    (by decide) (length_uninitialized garbage 8)
    (fun n => CecOBIndexHeader.write { h with magic := 0x6767, messageNum := n })
    (fun n => CecOBIndexHeader.length_write _) hfile
  rw [← heq]
  unfold updateOutboxIndex
  rw [copyOut_of_le (by omega), List.drop_zero, Option.bind_eq_bind, Option.bind_some, hh]
  simp only [Option.bind_eq_bind]

/-! ### Boxes -/

section Boxes

variable {h : CecMBoxListHeader} {name : Bytes} {names : List Bytes}

/-- The boxes that the header counts, when its magic number is right. -/
def listedBoxes (h : CecMBoxListHeader) : Nat := if h.magic = 0x6868 then h.numBoxes else 0

def BoxesFit (num : Nat) (names : List Bytes) : Prop := num + names.length ≤ 24 ∧ ∀ n ∈ names, 7 ≤ n.length

instance (num : Nat) : Decidable (BoxesFit num names) := inferInstanceAs (Decidable (_ ∧ _))

private theorem checkMboxList_fits (hh : h.boxNames.length = boxNamesSize) :
    (checkMboxList h).boxNames.length = boxNamesSize ∧ (checkMboxList h).numBoxes = listedBoxes h := by
  unfold checkMboxList listedBoxes
  by_cases hmagic : h.magic = 0x6868
  · simp [hmagic, hh]
  · simp [hmagic]

private theorem addBox_of_lt (hh : h.boxNames.length = boxNamesSize) (hname : name.length ≤ 16)
    (hnum : h.numBoxes < 24) :
    ∃ h', addBox h name = some h' ∧ h'.boxNames.length = boxNamesSize ∧ h'.numBoxes = h.numBoxes + 1 := by
  have hsize : boxNamesSize = 384 := rfl
  have hfits : 0x10 * h.numBoxes + name.length ≤ h.boxNames.length := by omega
  refine ⟨{ h with boxNames := place h.boxNames (0x10 * h.numBoxes) name, numBoxes := h.numBoxes + 1 }, ?_,
    (length_place hfits).trans hh, rfl⟩
  rw [addBox, copyIn_of_le hfits]
  rfl

private theorem addBox_of_le (hh : h.boxNames.length = boxNamesSize) (hname : 0 < name.length)
    (hnum : 24 ≤ h.numBoxes) : addBox h name = none := by
  have hsize : boxNamesSize = 384 := rfl
  rw [addBox, copyIn_of_lt (by omega)]
  rfl

private theorem activateTitle_fits (programId : UInt32) (hh : h.boxNames.length = boxNamesSize)
    (hnum : h.numBoxes ≤ 24) : ∃ h', activateTitle programId h = some h' ∧ h'.boxNames.length = boxNamesSize := by
  have hsize : boxNamesSize = 384 := rfl
  have hsearch : ∀ (is : List Nat), (∀ i ∈ is, i < 24) → ∀ found, ∃ found',
      is.foldlM (fun found i => do return found || (← copyOut h.boxNames (0x10 * i) 8) = hexName programId) found =
        some found' := by
    intro is
    induction is with
    | nil => exact fun _ found => ⟨found, rfl⟩
    | cons i is ih =>
      intro his found
      have hi := his i List.mem_cons_self
      rw [List.foldlM_cons, copyOut_of_le (by omega)]
      exact ih (fun j hj => his j (List.mem_cons_of_mem _ hj)) _
  obtain ⟨found, hfound⟩ := hsearch (List.range h.numBoxes)
    (fun i hi => Nat.lt_of_lt_of_le (List.mem_range.mp hi) hnum) false
  rw [activateTitle, hfound, Option.bind_eq_bind, Option.bind_some]
  split_ifs with hadd
  · have hname : (hexName programId ++ List.replicate 8 0).length ≤ 16 := by simp [hexName]
    obtain ⟨h', hadded, hh', -⟩ := addBox_of_lt hh hname hadd.2
    exact ⟨h', hadded, hh'⟩
  · exact ⟨h, rfl, hh⟩

/-- The names that are no names of boxes. -/
def boxNames (root : List Bytes) : List Bytes := root.filter fun name => name ≠ mboxListName

private theorem foldlM_addEntry (names : List Bytes) (hh : h.boxNames.length = boxNamesSize) (hnum : h.numBoxes ≤ 24) :
    if BoxesFit h.numBoxes (boxNames names) then
      ∃ h', names.foldlM addEntry h = some h' ∧ h'.boxNames.length = boxNamesSize
    else names.foldlM addEntry h = none := by
  induction names generalizing h with
  | nil =>
    rw [if_pos ⟨hnum, fun n hn => absurd hn List.not_mem_nil⟩]
    exact ⟨h, rfl, hh⟩
  | cons name names ih =>
    rw [List.foldlM_cons, addEntry]
    by_cases hlist : name = mboxListName
    · have hnames : boxNames (name :: names) = boxNames names := by simp [boxNames, hlist]
      rw [if_pos hlist, hnames]
      exact ih hh hnum
    · have hnames : boxNames (name :: names) = name :: boxNames names := by simp [boxNames, hlist]
      have hcopied : (name ++ [0]).length = name.length + 1 := List.length_append
      rw [if_neg hlist, hnames]
      by_cases hname : 7 ≤ name.length
      · have htaken : (((name ++ [0]).drop 0).take 8).length = 8 := by
          rw [List.length_take, List.drop_zero]
          omega
        rw [copyOut_of_le (by omega)]
        simp only [Option.bind_eq_bind, Option.bind_some]
        rcases Nat.lt_or_ge h.numBoxes 24 with hlt | hge
        · obtain ⟨h', hadd, hh', hnum'⟩ := addBox_of_lt hh (htaken.trans_le (by decide)) hlt
          have hrest := ih hh' (by omega)
          rw [hadd, Option.bind_some]
          have hiff : BoxesFit h.numBoxes (name :: boxNames names) ↔ BoxesFit h'.numBoxes (boxNames names) := by
            simp only [BoxesFit, List.length_cons, List.mem_cons, forall_eq_or_imp, hname, true_and, hnum']
            rw [Nat.add_assoc, Nat.add_comm 1]
          simpa only [hiff] using hrest
        · have hfull : ¬ BoxesFit h.numBoxes (name :: boxNames names) := by
            rintro ⟨hle, -⟩
            rw [List.length_cons] at hle
            omega
          rw [if_neg hfull, addBox_of_le hh (by omega) hge]
          rfl
      · have hshort : ¬ BoxesFit h.numBoxes (name :: boxNames names) :=
          fun hfits => hname (hfits.2 name List.mem_cons_self)
        rw [if_neg hshort, copyOut_of_lt (by omega)]
        rfl

end Boxes

/-! ### All checks -/

def StaysInside (type : CecDataPathType) (programId : UInt32) (dirs : CecDirectories) (file : Bytes) : Prop :=
  match type with
  | .mboxList =>
    let h := CecMBoxListHeader.read (file.take mboxListSize)
    mboxListSize ≤ file.length ∧
      (programId = 0 → listedBoxes h ≤ 24 → BoxesFit (listedBoxes h) (boxNames (dirs.root.take 25)))
  | .mboxInfo => 0x60 ≤ file.length
  | .inboxInfo => boxHeaderSize ≤ file.length
  | .outboxInfo =>
    let h := CecBoxInfoHeader.read (file.take boxHeaderSize)
    boxHeaderSize ≤ file.length ∧
      SlotsInside messageHeaderSize 0 (outboxStart file.length h) (readMessages h dirs.outbox)
  | .outboxIndex =>
    obIndexHeaderSize ≤ file.length ∧
      SlotsInside 8 0x20
        (indexStart (file.length % 2 ^ 32) (CecOBIndexHeader.read (file.take obIndexHeaderSize)).messageNum)
        (messages (dirs.outbox.take 8))
  | .other _ => True

private theorem updateMboxList_isSome_iff (programId : UInt32) (root : List Bytes) {h : CecMBoxListHeader}
    (hh : CecMBoxListHeader.read (file.take mboxListSize) = h) :
    (updateMboxList programId root file).isSome ↔ mboxListSize ≤ file.length ∧
      (programId = 0 → listedBoxes h ≤ 24 → BoxesFit (listedBoxes h) (boxNames (root.take 25))) := by
  unfold updateMboxList
  by_cases hfile : mboxListSize ≤ file.length
  · have hnames : h.boxNames.length = boxNamesSize := by
      rw [← hh, CecMBoxListHeader.read, List.length_drop, List.length_take, Nat.min_eq_left hfile]
      rfl
    obtain ⟨hchecked, hnum⟩ := checkMboxList_fits hnames
    rw [copyOut_of_le (by omega), List.drop_zero, Option.bind_eq_bind, Option.bind_some, and_iff_right hfile, hh]
    dsimp only
    rw [hnum]
    have hcopy : ∀ h : CecMBoxListHeader, h.boxNames.length = boxNamesSize → (copyIn file 0 h.write).isSome := by
      intro h hnames
      have hsize : mboxListSize = 12 + boxNamesSize := rfl
      rw [copyIn_of_le (by simp only [CecMBoxListHeader.write, List.length_append, length_writeLE, hnames]; omega)]
      rfl
    split_ifs with hmany hid
    · refine iff_of_true (hcopy _ hchecked) fun _ hle => absurd hle (by omega)
    · obtain ⟨h', hactivated, hnames'⟩ := activateTitle_fits programId hchecked (by omega)
      rw [hactivated]
      exact iff_of_true (hcopy _ hnames') fun hzero => absurd hzero hid
    · rw [forall_prop_of_true (not_not.mp hid), forall_prop_of_true (Nat.le_of_not_lt hmany)]
      have hentries := foldlM_addEntry (root.take 25) hchecked (by omega)
      rw [hnum] at hentries
      split_ifs at hentries with hfits
      · obtain ⟨h', hadded, hnames'⟩ := hentries
        rw [hadded]
        exact iff_of_true (hcopy _ hnames') hfits
      · rw [hentries]
        exact iff_of_false Bool.false_ne_true hfits
  · rw [copyOut_of_lt (by omega)]
    exact iff_of_false Bool.false_ne_true fun h => hfile h.1

private theorem isSome_ite {α : Type} {c : Prop} [Decidable c] {x : α} :
    (if c then some x else none).isSome ↔ c := by
  split_ifs with hc
  · exact iff_of_true rfl hc
  · exact iff_of_false Bool.false_ne_true hc

/-- A check of a file leaves no buffer and no array, exactly when what it copies fits them. -/
theorem checkAndUpdateFile_isSome_iff (type : CecDataPathType) (programId : UInt32) (dirs : CecDirectories)
    (file : Bytes) : (checkAndUpdateFile type programId dirs garbage file).isSome ↔
      StaysInside type programId dirs file := by
  cases type with
  | mboxList => exact updateMboxList_isSome_iff programId dirs.root rfl
  | mboxInfo =>
    show (updateMboxInfo file).isSome ↔ 0x60 ≤ file.length
    rw [updateMboxInfo]
    by_cases hfile : 0x60 ≤ file.length
    · have htaken : (file.take 0x60).length = 0x60 := by
        rw [List.length_take]
        omega
      refine iff_of_true ?_ hfile
      rw [copyOut_of_le (by omega), List.drop_zero, Option.bind_eq_bind, Option.bind_some]
      split_ifs
      · rw [copyIn_of_le (by rw [length_place (by rw [length_writeLE]; omega)]; omega)]
        rfl
      · rw [copyIn_of_le (by omega)]
        rfl
    · rw [copyOut_of_lt (by omega)]
      exact iff_of_false Bool.false_ne_true hfile
  | inboxInfo =>
    show (updateInboxInfo file).isSome ↔ boxHeaderSize ≤ file.length
    rw [updateInboxInfo]
    by_cases hfile : boxHeaderSize ≤ file.length
    · refine iff_of_true ?_ hfile
      rw [copyOut_of_le (by omega), Option.bind_eq_bind, Option.bind_some]
      dsimp only
      rw [copyIn_of_le (by rw [CecBoxInfoHeader.length_write]; omega)]
      rfl
    · rw [copyOut_of_lt (by omega)]
      exact iff_of_false Bool.false_ne_true hfile
  | outboxInfo =>
    show (updateOutboxInfo garbage dirs.outbox file).isSome ↔ _ ∧ _
    by_cases hfile : boxHeaderSize ≤ file.length
    · rw [updateOutboxInfo_eq garbage dirs.outbox rfl hfile, isSome_ite, and_iff_right hfile]
    · rw [updateOutboxInfo, copyOut_of_lt (by omega)]
      exact iff_of_false Bool.false_ne_true fun h => hfile h.1
  | outboxIndex =>
    show (updateOutboxIndex garbage dirs.outbox file).isSome ↔ _ ∧ _
    by_cases hfile : obIndexHeaderSize ≤ file.length
    · rw [updateOutboxIndex_eq garbage dirs.outbox rfl hfile, isSome_ite, and_iff_right hfile]
    · rw [updateOutboxIndex, copyOut_of_lt (by omega)]
      exact iff_of_false Bool.false_ne_true fun h => hfile h.1
  | other _ => exact iff_of_true rfl trivial

/-- An index of sixteen zero bytes, in a directory without messages. -/
theorem checkAndUpdateFile_leaves :
    checkAndUpdateFile .outboxIndex 0 ⟨[], [(obIndexName, [])]⟩ (fun _ => 0) (List.replicate 16 0) = none := by
  decide +kernel

end SweepDSEmu.StreetPass
