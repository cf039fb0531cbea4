import SweepDSEmu.StreetPass.InboxConsistency
import Mathlib.Algebra.BigOperators.Group.List.Basic
import Mathlib.Tactic.NormNum

/-!
# Runs of the importers

After every call all inboxes are consistent, and the inboxes and external inboxes have changed by the events of the
calls: what an inbox has more than before has been added to it or moved to it, its `box_size` has grown by that, and a
message leaves an external inbox for its inbox, or because its title has none.

The sizes and the numbers in the headers have 32 bits, and the number of bytes that a write returns is compared as an
`int`.  `CleanEntry` and `CleanExternal` say that they are enough.
-/

namespace SweepDSEmu.StreetPass

namespace Boxes

def file (s : Boxes) (id name : Name) : Option Bytes := (s.inbox id).bind fun files => files name

def HasInbox (s : Boxes) (id : Name) : Prop := s.file id boxInfoName ≠ none

def header (s : Boxes) (id : Name) : CecBoxInfoHeader := CecBoxInfoHeader.read ((s.file id boxInfoName).getD [])

def Full (s : Boxes) (id : Name) : Prop := (s.header id).maxMessageNum ≤ (s.header id).messageNum

end Boxes

def arrivals (events : List Event) : List External :=
  events.filterMap fun
    | .added x | .moved x => some x
    | _ => none

/-- The messages that arrive in external inboxes. -/
def queuedOf (events : List Event) : List External :=
  events.filterMap fun
    | .queued x => some x
    | _ => none

def leaving (events : List Event) : List External :=
  events.filterMap fun
    | .moved x | .dropped x => some x
    | _ => none

def imported (events : List Event) : List External :=
  events.filterMap fun
    | .added x | .queued x => some x
    | _ => none

variable (e₁ e₂ : List Event)

@[simp]
theorem arrivals_append : arrivals (e₁ ++ e₂) = arrivals e₁ ++ arrivals e₂ :=
  List.filterMap_append ..

@[simp]
theorem queuedOf_append : queuedOf (e₁ ++ e₂) = queuedOf e₁ ++ queuedOf e₂ :=
  List.filterMap_append ..

@[simp]
theorem leaving_append : leaving (e₁ ++ e₂) = leaving e₁ ++ leaving e₂ :=
  List.filterMap_append ..

@[simp]
theorem imported_append : imported (e₁ ++ e₂) = imported e₁ ++ imported e₂ :=
  List.filterMap_append ..

/-- The sizes of the messages of a title together. -/
def totalSize (id : Name) (l : List External) : Nat :=
  ((l.filter fun x => x.id = id).map fun x => x.contents.length).sum

@[simp]
theorem totalSize_append (id : Name) (l₁ l₂ : List External) :
    totalSize id (l₁ ++ l₂) = totalSize id l₁ + totalSize id l₂ := by
  simp [totalSize]

def SafeName (name : Name) : Prop := '/' ∉ name ∧ name ≠ ['.'] ∧ name ≠ ['.', '.']

structure Accounted (s₀ s : Boxes) (events : List Event) : Prop where
  hasInbox : ∀ id, s.HasInbox id ↔ s₀.HasInbox id
  file : ∀ x : External, x.name ≠ boxInfoName →
    (s.file x.id x.name = some x.contents ↔ s₀.file x.id x.name = some x.contents ∨ x ∈ arrivals events)
  fresh : ∀ x ∈ arrivals events, x.name ≠ boxInfoName ∧ s₀.file x.id x.name = none
  once : ((arrivals events).map fun x => (x.id, x.name)).Nodup
  boxSize : ∀ id, (s.header id).boxSize = (s₀.header id).boxSize + totalSize id (arrivals events)
  external : (s₀.external ++ queuedOf events).Perm (s.external ++ leaving events)
  written : ∀ x, x ∈ arrivals events ∨ x ∈ queuedOf events →
    s₀.HasInbox x.id ∧ x.name = messageName x.contents ∧ SafeName x.name
  titled : ∀ x ∈ imported events, x.id = titleName x.contents ∧ SafeName x.id
  dropped : ∀ x, .dropped x ∈ events → ¬ s₀.HasInbox x.id

theorem Accounted.refl (s : Boxes) : Accounted s s [] where
  hasInbox := fun _ => Iff.rfl
  file := fun x _ => by simp [arrivals]
  fresh := fun x hx => by cases hx
  once := List.nodup_nil
  boxSize := fun _ => rfl
  external := List.Perm.refl _
  written := fun x hx => by rcases hx with hx | hx <;> cases hx
  titled := fun x hx => by cases hx
  dropped := fun x hx => by cases hx

theorem Accounted.trans {s₀ s₁ s₂ : Boxes} {e₁ e₂ : List Event} (h₁ : Accounted s₀ s₁ e₁) (h₂ : Accounted s₁ s₂ e₂) :
    Accounted s₀ s₂ (e₁ ++ e₂) := by
  constructor
  case hasInbox => exact fun id => (h₂.hasInbox id).trans (h₁.hasInbox id)
  case file =>
    intro x hx
    rw [h₂.file x hx, h₁.file x hx, arrivals_append, List.mem_append, or_assoc]
  case fresh =>
    intro x hx
    rw [arrivals_append, List.mem_append] at hx
    rcases hx with hx | hx
    · exact h₁.fresh x hx
    · obtain ⟨hname, hnone⟩ := h₂.fresh x hx
      refine ⟨hname, ?_⟩
      by_contra hsome
      obtain ⟨c, hc⟩ := Option.ne_none_iff_exists'.mp hsome
      have hfile := (h₁.file { x with contents := c } hname).mpr (Or.inl hc)
      rw [show s₁.file x.id x.name = some c from hfile] at hnone
      cases hnone
  case once =>
    rw [arrivals_append, List.map_append]
    refine List.nodup_append.mpr ⟨h₁.once, h₂.once, ?_⟩
    intro k hk k' hk' heq
    obtain ⟨x, hx, rfl⟩ := List.mem_map.mp hk
    obtain ⟨y, hy, rfl⟩ := List.mem_map.mp hk'
    obtain ⟨hid, hname⟩ := Prod.mk.inj heq
    have hfile := (h₁.file x (h₁.fresh x hx).1).mpr (Or.inr hx)
    have hnone := (h₂.fresh y hy).2
    rw [← hid, ← hname, hfile] at hnone
    cases hnone
  case boxSize =>
    intro id
    rw [h₂.boxSize, h₁.boxSize, arrivals_append, totalSize_append, Nat.add_assoc]
  case external =>
    rw [List.perm_iff_count]
    intro x
    have hcount₁ := h₁.external.count_eq x
    have hcount₂ := h₂.external.count_eq x
    simp only [List.count_append, queuedOf_append, leaving_append] at hcount₁ hcount₂ ⊢
    omega
  case written =>
    intro x hx
    rw [arrivals_append, queuedOf_append, List.mem_append, List.mem_append, or_or_or_comm] at hx
    rcases hx with hx | hx
    · exact h₁.written x hx
    · obtain ⟨hin, hrest⟩ := h₂.written x hx
      exact ⟨(h₁.hasInbox x.id).mp hin, hrest⟩
  case titled =>
    intro x hx
    rw [imported_append, List.mem_append] at hx
    rcases hx with hx | hx
    · exact h₁.titled x hx
    · exact h₂.titled x hx
  case dropped =>
    intro x hx
    rcases List.mem_append.mp hx with hx | hx
    · exact h₁.dropped x hx
    · exact fun hin => h₂.dropped x hx ((h₁.hasInbox x.id).mpr hin)

private theorem getD_mem_of_lt {l : List Char} {n : Nat} (d : Char) (hn : n < l.length) : l.getD n d ∈ l := by
  rw [List.getD_eq_getElem?_getD, List.getElem?_eq_getElem hn, Option.getD_some]
  exact List.getElem_mem hn

private theorem base64Char_mem (n : Nat) : base64Char n ∈ base64Dict := getD_mem_of_lt _ (Nat.mod_lt n (by decide))

private theorem encodeBase64_mem (bytes : Bytes) : ∀ c ∈ encodeBase64 bytes, c ∈ base64Dict := by
  fun_induction encodeBase64 bytes with
  | case1 a b c rest n ih =>
    intro x hx
    simp only [List.mem_cons] at hx
    rcases hx with rfl | rfl | rfl | rfl | hx
    · exact base64Char_mem _
    · exact base64Char_mem _
    · exact base64Char_mem _
    · exact base64Char_mem _
    · exact ih x hx
  | case2 a b n =>
    intro x hx
    simp only [List.mem_cons, List.not_mem_nil, or_false] at hx
    rcases hx with rfl | rfl | rfl <;> exact base64Char_mem _
  | case3 a =>
    intro x hx
    simp only [List.mem_cons, List.not_mem_nil, or_false] at hx
    rcases hx with rfl | rfl <;> exact base64Char_mem _
  | case4 => exact fun x hx => by cases hx

theorem safeName_messageName (message : Bytes) : SafeName (messageName message) := by
  refine ⟨?_, ?_, ?_⟩
  · intro hmem
    rcases List.mem_cons.mp hmem with h | h
    · exact absurd h (by decide)
    · exact absurd (encodeBase64_mem _ _ h) (by decide)
  · intro h
    exact absurd (List.cons.inj h).1 (by decide)
  · intro h
    exact absurd (List.cons.inj h).1 (by decide)

private theorem titleName_mem (message : Bytes) : ∀ c ∈ titleName message, c ∈ hexDigits := by
  intro c hc
  obtain ⟨b, -, hb⟩ := List.mem_flatMap.mp hc
  have hlt : b.toNat < 256 := b.toNat_lt
  have hdigits : hexDigits.length = 16 := rfl
  simp only [hexByte, List.mem_cons, List.not_mem_nil, or_false] at hb
  rcases hb with rfl | rfl
  · exact getD_mem_of_lt _ (by omega)
  · exact getD_mem_of_lt _ (by omega)

theorem safeName_titleName (message : Bytes) : SafeName (titleName message) := by
  refine ⟨?_, ?_, ?_⟩
  · intro hmem
    exact absurd (titleName_mem message _ hmem) (by decide)
  · intro h
    have hdot : '.' ∈ titleName message := by rw [h]; exact List.mem_singleton_self _
    exact absurd (titleName_mem message _ hdot) (by decide)
  · intro h
    have hdot : '.' ∈ titleName message := by rw [h]; exact List.mem_cons_self ..
    exact absurd (titleName_mem message _ hdot) (by decide)

/-- The generator and the clock give an identifier and a time. -/
structure ZipEntry.Drawn (e : ZipEntry) : Prop where
  newId : e.newId.length = 8
  time : e.time.length = 12
  size : messageHeaderSize ≤ e.data.length

theorem ZipEntry.Drawn.length_message {e : ZipEntry} (h : e.Drawn) : e.message.length = e.data.length := by
  have hid := h.newId
  have htime := h.time
  have hsize := h.size
  unfold ZipEntry.message stamp
  unfold messageHeaderSize at hsize
  simp only [List.length_append, List.length_take, List.length_drop, hid, htime]
  omega

theorem ZipEntry.Drawn.messageName_message {e : ZipEntry} (h : e.Drawn) : messageName e.message = e.fileName := by
  have hsize : 0x70 ≤ e.data.length := h.size
  have htake : (e.data.take 32).length = 32 := by
    rw [List.length_take]
    omega
  unfold messageName ZipEntry.fileName messageId ZipEntry.message stamp
  simp only [List.append_assoc]
  rw [List.drop_left' htake, List.take_left' h.newId]

theorem ZipEntry.Drawn.titleName_message {e : ZipEntry} (h : e.Drawn) : titleName e.message = titleName e.data := by
  have hsize : 0x70 ≤ e.data.length := h.size
  have hbytes : (e.message.drop 16).take 4 = (e.data.drop 16).take 4 := by
    unfold ZipEntry.message stamp
    simp only [List.append_assoc]
    rw [List.drop_append_of_le_length (by rw [List.length_take]; omega), List.drop_take,
      List.take_append_of_le_length (by rw [List.length_take, List.length_drop]; omega), List.take_take]
    rfl
  unfold titleName
  rw [hbytes]

structure Good (s : Boxes) : Prop where
  consistent : ∀ id files, s.inbox id = some files → files boxInfoName ≠ none → Consistent files
  external : ∀ x ∈ s.external, x.name = messageName x.contents ∧ messageHeaderSize ≤ x.contents.length ∧
    s.file x.id x.name = none
  distinct : (s.external.map fun x => (x.id, x.name)).Nodup

section Arrive

variable {s : Boxes} {x : External} {files : Files} {boxFile : Bytes}

def Boxes.arrive (s : Boxes) (x : External) (files : Files) (boxFile : Bytes) : Name → Option Files :=
  Function.update s.inbox x.id (some (addMessage files boxFile x.name x.contents))

/-- A message can be added to an inbox: it is new, there is room, and the fields of the header are large enough. -/
structure Fits (s : Boxes) (x : External) (files : Files) (boxFile : Bytes) : Prop where
  inbox : s.inbox x.id = some files
  boxInfo : files boxInfoName = some boxFile
  name : x.name = messageName x.contents
  size : messageHeaderSize ≤ x.contents.length
  fresh : files x.name = none
  room : (CecBoxInfoHeader.read boxFile).messageNum < (CecBoxInfoHeader.read boxFile).maxMessageNum
  boxInfoSize : (CecBoxInfoHeader.read boxFile).boxInfoSize + messageHeaderSize < 2 ^ 32
  boxSize : (CecBoxInfoHeader.read boxFile).boxSize + x.contents.length < 2 ^ 32

section

variable (h : Fits s x files boxFile)

include h

private theorem Fits.name_ne : x.name ≠ boxInfoName := by
  rw [h.name]
  exact messageName_ne_boxInfoName x.contents

theorem Fits.file_arrive (external : List External) (id name : Name) (hname : name ≠ boxInfoName) :
    Boxes.file ⟨s.arrive x files boxFile, external⟩ id name =
      if id = x.id ∧ name = x.name then some x.contents else s.file id name := by
  unfold Boxes.file Boxes.arrive
  dsimp only
  by_cases hid : id = x.id
  · subst hid
    rw [Function.update_self, Option.bind_some, h.inbox, Option.bind_some]
    by_cases hn : name = x.name
    · subst hn
      rw [if_pos ⟨rfl, rfl⟩]
      exact addMessage_self hname
    · rw [if_neg fun hc => hn hc.2]
      exact addMessage_of_ne hname hn
  · rw [Function.update_of_ne hid, if_neg fun hc => hid hc.1]

theorem Fits.header_arrive (external : List External) (id : Name) :
    (Boxes.HasInbox ⟨s.arrive x files boxFile, external⟩ id ↔ s.HasInbox id) ∧
      (Boxes.header ⟨s.arrive x files boxFile, external⟩ id).boxSize =
        (s.header id).boxSize + if id = x.id then x.contents.length else 0 := by
  obtain ⟨boxFile', hfile', -, hread⟩ := read_addMessage files boxFile x.name x.contents
  unfold Boxes.HasInbox Boxes.header Boxes.file Boxes.arrive
  dsimp only
  by_cases hid : id = x.id
  · subst hid
    rw [Function.update_self, Option.bind_some, hfile', h.inbox, Option.bind_some, h.boxInfo, if_pos rfl]
    refine ⟨by simp, ?_⟩
    rw [Option.getD_some, Option.getD_some, hread]
    exact Nat.mod_eq_of_lt h.boxSize
  · rw [Function.update_of_ne hid, if_neg hid]
    exact ⟨Iff.rfl, rfl⟩

theorem Fits.consistent_arrive (hs : Good s) (id : Name) (files' : Files)
    (hfiles' : s.arrive x files boxFile id = some files') (hbox : files' boxInfoName ≠ none) : Consistent files' := by
  unfold Boxes.arrive at hfiles'
  by_cases hid : id = x.id
  · subst hid
    rw [Function.update_self] at hfiles'
    cases hfiles'
    have hold : Consistent files := hs.consistent x.id files h.inbox (by rw [h.boxInfo]; exact Option.some_ne_none _)
    obtain ⟨boxFile₀, messages, hboxFile₀, hlists⟩ := hold
    rw [h.boxInfo] at hboxFile₀
    cases hboxFile₀
    obtain ⟨boxFile', hboxFile', hlists'⟩ := hlists.addMessage h.fresh h.name h.size h.room h.boxInfoSize
    exact ⟨boxFile', _, hboxFile', hlists'⟩
  · rw [Function.update_of_ne hid] at hfiles'
    exact hs.consistent id files' hfiles' hbox

theorem Fits.hasInbox : s.HasInbox x.id := by
  unfold Boxes.HasInbox Boxes.file
  rw [h.inbox, Option.bind_some, h.boxInfo]
  exact Option.some_ne_none _

theorem Fits.file_eq_none : s.file x.id x.name = none := by
  unfold Boxes.file
  rw [h.inbox, Option.bind_some]
  exact h.fresh

theorem Fits.accounted {external : List External} {event : Event} (harrivals : arrivals [event] = [x])
    (hexternal : (s.external ++ queuedOf [event]).Perm (external ++ leaving [event])) (hqueued : queuedOf [event] = [])
    (htitled : ∀ y ∈ imported [event], y.id = titleName y.contents ∧ SafeName y.id)
    (hdropped : ∀ y, event ≠ .dropped y) : Accounted s ⟨s.arrive x files boxFile, external⟩ [event] := by
  constructor
  case hasInbox => exact fun id => (h.header_arrive external id).1
  case file =>
    intro y hy
    rw [h.file_arrive external y.id y.name hy, harrivals, List.mem_singleton]
    split
    · rename_i hc
      obtain ⟨hid, hname⟩ := hc
      rw [hid, hname, h.file_eq_none]
      constructor
      · intro hcontents
        right
        cases y
        cases x
        cases hid
        cases hname
        cases hcontents
        rfl
      · rintro (hc | rfl)
        · cases hc
        · rfl
    · rename_i hc
      constructor
      · exact Or.inl
      · rintro (hf | rfl)
        · exact hf
        · exact (hc ⟨rfl, rfl⟩).elim
  case fresh =>
    intro y hy
    rw [harrivals, List.mem_singleton] at hy
    subst hy
    exact ⟨h.name_ne, h.file_eq_none⟩
  case once =>
    rw [harrivals]
    exact List.nodup_singleton _
  case boxSize =>
    intro id
    rw [(h.header_arrive external id).2, harrivals]
    unfold totalSize
    by_cases hid : id = x.id
    · simp [hid]
    · have hid' : x.id ≠ id := fun hc => hid hc.symm
      simp [hid, hid']
  case external => exact hexternal
  case written =>
    intro y hy
    rw [harrivals, hqueued, List.mem_singleton] at hy
    rcases hy with rfl | hy
    · refine ⟨h.hasInbox, h.name, ?_⟩
      rw [h.name]
      exact safeName_messageName y.contents
    · cases hy
  case titled => exact htitled
  case dropped =>
    intro y hy
    exact absurd (List.mem_singleton.mp hy).symm (hdropped y)

end

end Arrive

/-- An entry that `importZipPass` stores, with the inbox of its title. -/
structure Accepted (s : Boxes) (e : ZipEntry) (id : Name) (files : Files) (boxFile : Bytes) : Prop where
  target : ∃ filename, e.target = some (id, filename) ∧ goodHeader e.data id filename = true
  inbox : s.inbox id = some files
  boxInfo : files boxInfoName = some boxFile
  size : e.data.length ≤ (CecBoxInfoHeader.read boxFile).maxMessageSize
  room : (CecBoxInfoHeader.read boxFile).maxMessageNum ≤ (CecBoxInfoHeader.read boxFile).messageNum →
    s.externalCount id ≤ 99

theorem importEntry_cases (s : Boxes) (e : ZipEntry) :
    (∃ id files boxFile, Accepted s e id files boxFile ∧ importEntry s e = storeEntry s e id files boxFile) ∨
      importEntry s e = (s, .skipped) := by
  unfold importEntry
  cases htarget : e.target with
  | none => exact Or.inr rfl
  | some target =>
    obtain ⟨id, filename⟩ := target
    dsimp only
    cases hinbox : s.inbox id with
    | none => exact Or.inr rfl
    | some files =>
      dsimp only
      cases hboxInfo : files boxInfoName with
      | none => exact Or.inr rfl
      | some boxFile =>
        dsimp only
        split
        · exact Or.inr rfl
        · rename_i hsize
          split
          · exact Or.inr rfl
          · rename_i hfull
            split
            · rename_i hheader
              refine Or.inl ⟨id, files, boxFile, ⟨⟨filename, htarget, hheader⟩, hinbox, hboxInfo, ?_, ?_⟩, rfl⟩
              · exact Nat.le_of_not_lt hsize
              · intro hbox
                exact Nat.le_of_not_lt fun hlt => hfull ⟨hbox, hlt⟩
            · exact Or.inr rfl

theorem Accepted.header_le {s : Boxes} {e : ZipEntry} {id : Name} {files : Files} {boxFile : Bytes}
    (h : Accepted s e id files boxFile) : messageHeaderSize ≤ e.data.length := by
  obtain ⟨filename, htarget, -⟩ := h.target
  unfold ZipEntry.target at htarget
  split at htarget
  · cases htarget
  · split at htarget
    · rename_i hsize
      simp only [Bool.and_eq_true, decide_eq_true_eq] at hsize
      exact hsize.2
    · cases htarget

theorem Accepted.titleName_eq {s : Boxes} {e : ZipEntry} {id : Name} {files : Files} {boxFile : Bytes}
    (h : Accepted s e id files boxFile) : titleName e.data = id := by
  obtain ⟨filename, -, hheader⟩ := h.target
  unfold goodHeader at hheader
  simp only [Bool.and_eq_true, decide_eq_true_eq] at hheader
  exact hheader.1.2

structure Fresh (s : Boxes) (e : ZipEntry) : Prop where
  newId : e.newId.length = 8
  time : e.time.length = 12
  inbox : ∀ id, s.file id e.fileName = none
  external : ∀ x ∈ s.external, x.name ≠ e.fileName

/-- The identifier is new, and the fields that the import of the entry uses are large enough. -/
def CleanEntry (s : Boxes) (e : ZipEntry) : Prop :=
  Fresh s e ∧ ∀ id files boxFile, Accepted s e id files boxFile →
    e.data.length < 2 ^ 31 ∧
      ((CecBoxInfoHeader.read boxFile).messageNum < (CecBoxInfoHeader.read boxFile).maxMessageNum →
        (CecBoxInfoHeader.read boxFile).boxInfoSize + messageHeaderSize < 2 ^ 32 ∧
          (CecBoxInfoHeader.read boxFile).boxSize + e.data.length < 2 ^ 32)

/-- A message is put into an external inbox only when the inbox of its title is full at that time. -/
def QueuedFull (s₀ : Boxes) (events : List Event) : Prop :=
  ∀ x, .queued x ∈ events → ∃ e₁ e₂ s₁, events = e₁ ++ .queued x :: e₂ ∧ Accounted s₀ s₁ e₁ ∧ s₁.Full x.id

def StoredOnce (entries : List ZipEntry) (events : List Event) : Prop :=
  ∃ accepted, accepted.Sublist entries ∧
    List.Forall₂ (fun (e : ZipEntry) (x : External) => x.name = e.fileName ∧ x.contents = e.message) accepted
      (imported events)

structure Imports (s₀ s : Boxes) (entries : List ZipEntry) (events : List Event) : Prop where
  good : Good s
  accounted : Accounted s₀ s events
  queuedFull : QueuedFull s₀ events
  storedOnce : StoredOnce entries events

theorem Imports.refl {s : Boxes} (h : Good s) : Imports s s [] [] where
  good := h
  accounted := Accounted.refl s
  queuedFull := fun x hx => by cases hx
  storedOnce := ⟨[], List.Sublist.refl _, List.Forall₂.nil⟩

theorem Imports.trans {s₀ s₁ s₂ : Boxes} {n₁ n₂ : List ZipEntry} {e₁ e₂ : List Event} (h₁ : Imports s₀ s₁ n₁ e₁)
    (h₂ : Imports s₁ s₂ n₂ e₂) : Imports s₀ s₂ (n₁ ++ n₂) (e₁ ++ e₂) where
  good := h₂.good
  accounted := h₁.accounted.trans h₂.accounted
  queuedFull := by
    intro x hx
    rcases List.mem_append.mp hx with hx | hx
    · obtain ⟨f₁, f₂, s, heq, hacc, hfull⟩ := h₁.queuedFull x hx
      refine ⟨f₁, f₂ ++ e₂, s, ?_, hacc, hfull⟩
      rw [heq, List.append_assoc, List.cons_append]
    · obtain ⟨f₁, f₂, s, heq, hacc, hfull⟩ := h₂.queuedFull x hx
      refine ⟨e₁ ++ f₁, f₂, s, ?_, h₁.accounted.trans hacc, hfull⟩
      rw [heq, List.append_assoc]
  storedOnce := by
    obtain ⟨a₁, hsub₁, hall₁⟩ := h₁.storedOnce
    obtain ⟨a₂, hsub₂, hall₂⟩ := h₂.storedOnce
    refine ⟨a₁ ++ a₂, hsub₁.append hsub₂, ?_⟩
    rw [imported_append]
    exact List.rel_append hall₁ hall₂

theorem Imports.skip {s₀ s : Boxes} {entries : List ZipEntry} {events : List Event} (e : ZipEntry)
    (h : Imports s₀ s entries events) : Imports s₀ s (e :: entries) events where
  good := h.good
  accounted := h.accounted
  queuedFull := h.queuedFull
  storedOnce := by
    obtain ⟨accepted, hsub, hall⟩ := h.storedOnce
    exact ⟨accepted, hsub.cons e, hall⟩

section Entry

variable {s : Boxes} {e : ZipEntry} {id : Name} {files : Files} {boxFile : Bytes}

private theorem Accepted.hasInbox (h : Accepted s e id files boxFile) : s.HasInbox id := by
  unfold Boxes.HasInbox Boxes.file
  rw [h.inbox, Option.bind_some, h.boxInfo]
  exact Option.some_ne_none _

private theorem Accepted.header_eq (h : Accepted s e id files boxFile) :
    s.header id = CecBoxInfoHeader.read boxFile := by
  unfold Boxes.header Boxes.file
  rw [h.inbox, Option.bind_some, h.boxInfo, Option.getD_some]

def ZipEntry.stored (e : ZipEntry) (id : Name) : External := { id := id, name := e.fileName, contents := e.message }

private theorem Accepted.titled (h : Accepted s e id files boxFile) (hdrawn : e.Drawn) :
    (e.stored id).id = titleName (e.stored id).contents ∧ SafeName (e.stored id).id := by
  have hid : (e.stored id).id = titleName (e.stored id).contents :=
    h.titleName_eq.symm.trans hdrawn.titleName_message.symm
  refine ⟨hid, ?_⟩
  rw [hid]
  exact safeName_titleName _

private theorem storedOnce_single {event : Event} {x : External} (himported : imported [event] = [x])
    (hname : x.name = e.fileName) (hcontents : x.contents = e.message) : StoredOnce [e] [event] := by
  refine ⟨[e], List.Sublist.refl _, ?_⟩
  rw [himported]
  exact List.Forall₂.cons ⟨hname, hcontents⟩ List.Forall₂.nil

theorem Good.writeExternal (hs : Good s) (h : Accepted s e id files boxFile) (hfresh : Fresh s e)
    (hfull : (CecBoxInfoHeader.read boxFile).maxMessageNum ≤ (CecBoxInfoHeader.read boxFile).messageNum) :
    Imports s (s.writeExternal (e.stored id)) [e] [.queued (e.stored id)] := by
  have hdrawn : e.Drawn := ⟨hfresh.newId, hfresh.time, h.header_le⟩
  have hname : (e.stored id).name = messageName (e.stored id).contents := hdrawn.messageName_message.symm
  -- no file is overwritten
  have hexternal : (s.writeExternal (e.stored id)).external = s.external ++ [e.stored id] := by
    unfold Boxes.writeExternal
    rw [List.filter_eq_self.mpr]
    intro y hy
    exact decide_eq_true fun hc => hfresh.external y hy hc.2
  have hfile : ∀ id name, (s.writeExternal (e.stored id)).file id name = s.file id name := fun _ _ => rfl
  constructor
  case good =>
    constructor
    · exact hs.consistent
    · intro y hy
      rw [hexternal, List.mem_append, List.mem_singleton] at hy
      rcases hy with hy | rfl
      · exact hs.external y hy
      · refine ⟨hname, ?_, hfresh.inbox id⟩
        exact h.header_le.trans_eq hdrawn.length_message.symm
    · rw [hexternal, List.map_append, List.map_singleton]
      refine List.nodup_append.mpr ⟨hs.distinct, List.nodup_singleton _, ?_⟩
      intro k hk k' hk' heq
      obtain ⟨y, hy, rfl⟩ := List.mem_map.mp hk
      rw [List.mem_singleton.mp hk'] at heq
      exact hfresh.external y hy (Prod.mk.inj heq).2
  case accounted =>
    constructor
    case hasInbox => exact fun _ => Iff.rfl
    case file => exact fun y _ => ⟨Or.inl, fun hc => hc.resolve_right (by intro hy; cases hy)⟩
    case fresh => exact fun y hy => by cases hy
    case once => exact List.nodup_nil
    case boxSize => exact fun _ => rfl
    case external =>
      rw [hexternal]
      exact List.Perm.of_eq (List.append_nil _).symm
    case written =>
      intro y hy
      rcases hy with hy | hy
      · cases hy
      · rw [List.mem_singleton.mp hy]
        refine ⟨h.hasInbox, hname, ?_⟩
        rw [hname]
        exact safeName_messageName _
    case titled =>
      intro y hy
      rw [List.mem_singleton.mp hy]
      exact h.titled hdrawn
    case dropped =>
      intro y hy
      cases List.mem_singleton.mp hy
  case queuedFull =>
    intro y hy
    cases List.mem_singleton.mp hy
    refine ⟨[], [], s, rfl, Accounted.refl s, ?_⟩
    show (s.header id).maxMessageNum ≤ (s.header id).messageNum
    rw [h.header_eq]
    exact hfull
  case storedOnce => exact storedOnce_single rfl rfl rfl

/-- A message that arrives leaves the external inboxes in order, when these are a part of those before without it. -/
theorem Good.arrive {x : External} (hs : Good s) (h : Fits s x files boxFile) {external : List External}
    (hsub : external.Sublist s.external) (hnot : ∀ y ∈ external, ¬ (y.id = x.id ∧ y.name = x.name)) :
    Good ⟨s.arrive x files boxFile, external⟩ := by
  constructor
  · exact h.consistent_arrive hs
  · intro y hy
    obtain ⟨hname, hsize, hnone⟩ := hs.external y (hsub.subset hy)
    refine ⟨hname, hsize, ?_⟩
    rw [h.file_arrive external y.id y.name (by rw [hname]; exact messageName_ne_boxInfoName _), if_neg (hnot y hy)]
    exact hnone
  · exact hs.distinct.sublist (hsub.map _)

theorem Good.addEntry (hs : Good s) (h : Accepted s e id files boxFile) (hfresh : Fresh s e)
    (hroom : (CecBoxInfoHeader.read boxFile).messageNum < (CecBoxInfoHeader.read boxFile).maxMessageNum)
    (hboxInfoSize : (CecBoxInfoHeader.read boxFile).boxInfoSize + messageHeaderSize < 2 ^ 32)
    (hboxSize : (CecBoxInfoHeader.read boxFile).boxSize + e.data.length < 2 ^ 32) :
    Imports s { s with inbox := s.arrive (e.stored id) files boxFile } [e] [.added (e.stored id)] := by
  have hdrawn : e.Drawn := ⟨hfresh.newId, hfresh.time, h.header_le⟩
  have hlen : (e.stored id).contents.length = e.data.length := hdrawn.length_message
  have hfits : Fits s (e.stored id) files boxFile := by
    constructor
    case inbox => exact h.inbox
    case boxInfo => exact h.boxInfo
    case name => exact hdrawn.messageName_message.symm
    case size =>
      rw [hlen]
      exact h.header_le
    case fresh =>
      have hnone := hfresh.inbox id
      unfold Boxes.file at hnone
      rw [h.inbox, Option.bind_some] at hnone
      exact hnone
    case room => exact hroom
    case boxInfoSize => exact hboxInfoSize
    case boxSize =>
      rw [hlen]
      exact hboxSize
  constructor
  case good => exact hs.arrive hfits (List.Sublist.refl _) fun y hy hc => hfresh.external y hy hc.2
  case accounted =>
    refine hfits.accounted rfl (List.Perm.refl _) rfl ?_ (fun y hc => by cases hc)
    intro y hy
    rw [List.mem_singleton.mp hy]
    exact h.titled hdrawn
  case queuedFull =>
    intro y hy
    cases List.mem_singleton.mp hy
  case storedOnce => exact storedOnce_single rfl rfl rfl

end Entry

theorem Good.importEntry {s : Boxes} (hs : Good s) {e : ZipEntry} (he : CleanEntry s e) :
    (∃ event, (StreetPass.importEntry s e).2 = .stored event ∧ Imports s (StreetPass.importEntry s e).1 [e] [event]) ∨
      StreetPass.importEntry s e = (s, .skipped) := by
  obtain ⟨hfresh, hclean⟩ := he
  rcases importEntry_cases s e with ⟨id, files, boxFile, haccepted, heq⟩ | hskip
  · left
    obtain ⟨hsize, hfields⟩ := hclean id files boxFile haccepted
    have hwritten : e.writtenOk = true := decide_eq_true hsize
    rw [heq]
    unfold storeEntry
    simp only [hwritten, if_true]
    split
    · rename_i hfull
      exact ⟨_, rfl, hs.writeExternal haccepted hfresh hfull⟩
    · rename_i hroom
      obtain ⟨hboxInfoSize, hboxSize⟩ := hfields (Nat.lt_of_not_le hroom)
      exact ⟨_, rfl, hs.addEntry haccepted hfresh (Nat.lt_of_not_le hroom) hboxInfoSize hboxSize⟩
  · exact Or.inr hskip

def CleanEntries : Boxes → List ZipEntry → Prop
  | _, [] => True
  | s, e :: entries => CleanEntry s e ∧ CleanEntries (importEntry s e).1 entries

theorem Good.importEntries (entries : List ZipEntry) (s : Boxes) (hs : Good s) (hclean : CleanEntries s entries) :
    Imports s (StreetPass.importEntries s entries).1 entries (StreetPass.importEntries s entries).2.1 ∧
      (StreetPass.importEntries s entries).2.2 = true := by
  induction entries generalizing s with
  | nil => exact ⟨Imports.refl hs, rfl⟩
  | cons e entries ih =>
    obtain ⟨he, hrest⟩ := hclean
    unfold StreetPass.importEntries
    rcases hs.importEntry he with ⟨event, hevent, himports⟩ | hskip
    · obtain ⟨s₁, hs₁⟩ : ∃ s₁, s₁ = (StreetPass.importEntry s e).1 := ⟨_, rfl⟩
      have heq : StreetPass.importEntry s e = (s₁, .stored event) := Prod.ext hs₁.symm hevent
      rw [← hs₁] at himports hrest
      obtain ⟨hmore, hdone⟩ := ih s₁ himports.good hrest
      rw [heq]
      exact ⟨himports.trans hmore, hdone⟩
    · rw [hskip] at hrest ⊢
      obtain ⟨hmore, hdone⟩ := ih s hs hrest
      exact ⟨hmore.skip e, hdone⟩

def CleanExternal (s : Boxes) (x : External) : Prop :=
  ∀ files boxFile, s.inbox x.id = some files → files boxInfoName = some boxFile →
    (CecBoxInfoHeader.read boxFile).messageNum < (CecBoxInfoHeader.read boxFile).maxMessageNum →
      (CecBoxInfoHeader.read boxFile).boxInfoSize + messageHeaderSize < 2 ^ 32 ∧
        (CecBoxInfoHeader.read boxFile).boxSize + x.contents.length < 2 ^ 32

section External

variable {s : Boxes} {x : External}

private theorem Good.nodup_external (hs : Good s) : s.external.Nodup := hs.distinct.of_map _

private theorem Good.perm_external (hs : Good s) (hx : x ∈ s.external) :
    s.external.Perm (s.external.filter (· ≠ x) ++ [x]) := by
  have hfilter : s.external.filter (· ≠ x) = s.external.erase x := by
    rw [hs.nodup_external.erase_eq_filter]
    refine List.filter_congr fun y _ => ?_
    by_cases hy : y = x <;> simp [hy]
  rw [hfilter]
  exact (List.perm_cons_erase hx).trans (List.perm_append_singleton _ _).symm

private theorem Good.key_ne (hs : Good s) (hx : x ∈ s.external) {y : External} (hy : y ∈ s.external) (hne : y ≠ x) :
    ¬ (y.id = x.id ∧ y.name = x.name) := by
  rintro ⟨hid, hname⟩
  exact hne (List.inj_on_of_nodup_map hs.distinct hy hx (Prod.ext hid hname))

theorem Good.importExternal (hs : Good s) (hx : x ∈ s.external) (hclean : CleanExternal s x) :
    Imports s (StreetPass.importExternal s x).1 [] (StreetPass.importExternal s x).2 ∧
      ∀ y ∈ s.external, y ≠ x → y ∈ (StreetPass.importExternal s x).1.external := by
  have hkeep : ∀ y ∈ s.external, y ≠ x → y ∈ s.external.filter (· ≠ x) := fun y hy hne =>
    List.mem_filter.mpr ⟨hy, decide_eq_true hne⟩
  have hsub : (s.external.filter (· ≠ x)).Sublist s.external := List.filter_sublist
  unfold StreetPass.importExternal
  dsimp only
  split
  · rename_i hnone
    have hno : ¬ s.HasInbox x.id := by
      unfold Boxes.HasInbox Boxes.file
      cases hinbox : s.inbox x.id with
      | none => simp
      | some files =>
        rw [hinbox, Option.bind_some] at hnone
        simpa using hnone
    refine ⟨?_, hkeep⟩
    constructor
    case good =>
      exact ⟨hs.consistent, fun y hy => hs.external y (hsub.subset hy), hs.distinct.sublist (hsub.map _)⟩
    case accounted =>
      constructor
      case hasInbox => exact fun _ => Iff.rfl
      case file => exact fun y _ => ⟨Or.inl, fun hc => hc.resolve_right (by intro hy; cases hy)⟩
      case fresh => exact fun y hy => by cases hy
      case once => exact List.nodup_nil
      case boxSize => exact fun _ => rfl
      case external =>
        show (s.external ++ []).Perm (s.external.filter (· ≠ x) ++ [x])
        rw [List.append_nil]
        exact hs.perm_external hx
      case written => exact fun y hy => by rcases hy with hy | hy <;> cases hy
      case titled => exact fun y hy => by cases hy
      case dropped =>
        intro y hy
        cases List.mem_singleton.mp hy
        exact hno
    case queuedFull =>
      intro y hy
      cases List.mem_singleton.mp hy
    case storedOnce => exact ⟨[], List.Sublist.refl _, List.Forall₂.nil⟩
  · rename_i files boxFile hsome
    obtain ⟨files', hinbox, hboxInfo⟩ := Option.bind_eq_some_iff.mp hsome
    obtain ⟨boxFile', hboxInfo, heq⟩ := Option.map_eq_some_iff.mp hboxInfo
    cases heq
    split
    · exact ⟨Imports.refl hs, fun y hy _ => hy⟩
    · rename_i hroom
      obtain ⟨hboxInfoSize, hboxSize⟩ := hclean files boxFile hinbox hboxInfo (Nat.lt_of_not_le hroom)
      obtain ⟨hname, hsize, hnone⟩ := hs.external x hx
      unfold Boxes.file at hnone
      rw [hinbox, Option.bind_some] at hnone
      have hfits : Fits s x files boxFile :=
        ⟨hinbox, hboxInfo, hname, hsize, hnone, Nat.lt_of_not_le hroom, hboxInfoSize, hboxSize⟩
      refine ⟨?_, hkeep⟩
      constructor
      case good =>
        refine hs.arrive hfits hsub ?_
        intro y hy
        obtain ⟨hy, hne⟩ := List.mem_filter.mp hy
        exact hs.key_ne hx hy (of_decide_eq_true hne)
      case accounted =>
        refine hfits.accounted rfl ?_ rfl (fun y hy => by cases hy) (fun y hc => by cases hc)
        show (s.external ++ []).Perm (s.external.filter (· ≠ x) ++ [x])
        rw [List.append_nil]
        exact hs.perm_external hx
      case queuedFull =>
        intro y hy
        cases List.mem_singleton.mp hy
      case storedOnce => exact ⟨[], List.Sublist.refl _, List.Forall₂.nil⟩

end External

/-- Every message of the external inboxes is clean in the state it finds. -/
def CleanExternals : Boxes → List External → Prop
  | _, [] => True
  | s, x :: xs => CleanExternal s x ∧ CleanExternals (importExternal s x).1 xs

theorem Good.importExternals (xs : List External) (hnodup : xs.Nodup) (s : Boxes) (hs : Good s)
    (hin : ∀ x ∈ xs, x ∈ s.external) (hclean : CleanExternals s xs) :
    Imports s (StreetPass.importExternals s xs).1 [] (StreetPass.importExternals s xs).2 := by
  induction xs generalizing s with
  | nil => exact Imports.refl hs
  | cons x xs ih =>
    obtain ⟨hx, hrest⟩ := hclean
    obtain ⟨hnot, hnodup⟩ := List.nodup_cons.mp hnodup
    obtain ⟨himports, hkeep⟩ := hs.importExternal (hin x (List.mem_cons_self ..)) hx
    have hmore := ih hnodup _ himports.good (fun y hy => hkeep y (hin y (List.mem_cons_of_mem x hy)) ?_) hrest
    · exact himports.trans hmore
    · rintro rfl
      exact hnot hy

def CleanQueue : Boxes → List (Option (List ZipEntry)) → Prop
  | _, [] => True
  | s, none :: queue => CleanQueue s queue
  | s, some entries :: queue => CleanEntries s entries ∧ CleanQueue (importEntries s entries).1 queue

def queueEntries (queue : List (Option (List ZipEntry))) : List ZipEntry := queue.flatMap fun zip => zip.getD []

theorem Good.importZipPass {s : Boxes} (hs : Good s) {entries : List ZipEntry} (hclean : CleanEntries s entries) :
    Imports s (StreetPass.importZipPass s 0 entries).1 entries (StreetPass.importZipPass s 0 entries).2.1 ∧
      (StreetPass.importZipPass s 0 entries).2.2 = (StreetPass.importZipPass s 0 entries).2.1.length := by
  obtain ⟨himports, hdone⟩ := Good.importEntries entries s hs hclean
  unfold StreetPass.importZipPass
  dsimp only
  rw [hdone]
  exact ⟨himports, rfl⟩

theorem Good.importQueue (queue : List (Option (List ZipEntry))) (s : Boxes) (hs : Good s)
    (hclean : CleanQueue s queue) :
    Imports s (StreetPass.importQueue s 0 queue).1 (queueEntries queue) (StreetPass.importQueue s 0 queue).2.1 := by
  induction queue generalizing s with
  | nil => exact Imports.refl hs
  | cons zip queue ih =>
    cases zip with
    | none => exact ih s hs hclean
    | some entries =>
      obtain ⟨hentries, hrest⟩ := hclean
      obtain ⟨himports, hret⟩ := hs.importZipPass hentries
      have hmore := ih _ himports.good hrest
      unfold StreetPass.importQueue
      dsimp only
      rw [if_neg (by rw [hret]; exact Int.not_lt.mpr (Int.natCast_nonneg _))]
      exact himports.trans hmore

inductive Call where
  | importZipPass (checks : Int) (entries : List ZipEntry)
  | importQueuedZipPass (checks : Int) (order : List External → List External) (queue : List (Option (List ZipEntry)))

namespace Call

def exec (s : Boxes) : Call → Boxes × List Event × Int
  | .importZipPass checks entries => StreetPass.importZipPass s checks entries
  | .importQueuedZipPass checks order queue => StreetPass.importQueuedZipPass s checks order queue

def entries : Call → List ZipEntry
  | .importZipPass _ entries => entries
  | .importQueuedZipPass _ _ queue => queueEntries queue

/-- The identifiers are new and the fields large enough whenever the call uses them.  The files of the external inboxes
are found in some order. -/
def Clean (s : Boxes) : Call → Prop
  | .importZipPass checks entries => checks = 0 → CleanEntries s entries
  | .importQueuedZipPass checks order queue => checks = 0 →
    (order s.external).Perm s.external ∧ CleanExternals s (order s.external) ∧
      CleanQueue (importExternals s (order s.external)).1 queue

end Call

def run : Boxes → List Call → Boxes × List Event
  | s, [] => (s, [])
  | s, call :: calls =>
    let (s, events, _) := call.exec s
    let (s, events') := run s calls
    (s, events ++ events')

def CleanRun : Boxes → List Call → Prop
  | _, [] => True
  | s, call :: calls => call.Clean s ∧ CleanRun (call.exec s).1 calls

theorem Imports.none {s : Boxes} (h : Good s) (entries : List ZipEntry) : Imports s s entries [] where
  good := h
  accounted := Accounted.refl s
  queuedFull := fun x hx => by cases hx
  storedOnce := ⟨[], List.nil_sublist _, List.Forall₂.nil⟩

theorem Good.exec {s : Boxes} (hs : Good s) {call : Call} (hclean : call.Clean s) :
    Imports s (call.exec s).1 call.entries (call.exec s).2.1 := by
  cases call with
  | importZipPass checks entries =>
    by_cases hchecks : checks = 0
    · subst hchecks
      exact (hs.importZipPass (hclean rfl)).1
    · have heq : Call.exec s (.importZipPass checks entries) = (s, [], checks) := if_pos hchecks
      rw [heq]
      exact Imports.none hs entries
  | importQueuedZipPass checks order queue =>
    by_cases hchecks : checks = 0
    · subst hchecks
      obtain ⟨hperm, hexternals, hqueue⟩ := hclean rfl
      have hnodup : (order s.external).Nodup := hperm.nodup_iff.mpr (hs.distinct.of_map _)
      have hfirst := Good.importExternals (order s.external) hnodup s hs (fun x hx => hperm.mem_iff.mp hx) hexternals
      exact hfirst.trans (Good.importQueue queue _ hfirst.good hqueue)
    · have heq : Call.exec s (.importQueuedZipPass checks order queue) = (s, [], checks) := if_pos hchecks
      rw [heq]
      exact Imports.none hs (queueEntries queue)

def sampleId : Name := ['0', '0', '0', '0', '0', '0', '0', '0']

def sampleHeader (boxSize : Nat) : CecBoxInfoHeader where
  magic := 0x6262
  padding := 0
  boxInfoSize := 0x20
  maxBoxSize := 0x1000
  boxSize := boxSize
  maxMessageNum := 1
  messageNum := 0
  maxBatchSize := 1
  maxMessageSize := 0x100

def sampleBoxes (boxSize : Nat) : Boxes where
  inbox := fun id =>
    if id = sampleId then some fun name => if name = boxInfoName then some (sampleHeader boxSize).write else none
    else none
  external := []

def sampleEntry : ZipEntry where
  name := some (sampleId ++ ['/'] ++ '_' :: encodeBase64 (List.replicate 8 0))
  data := [0x60, 0x60, 0, 0, 0x70, 0, 0, 0] ++ List.replicate 0x68 0
  newId := [1, 0, 0, 0, 0, 0, 0, 0]
  time := List.replicate 12 0

def sampleCalls : List Call := [.importZipPass 0 [sampleEntry]]

private theorem sampleBoxes_inbox {boxSize : Nat} {id : Name} {files : Files}
    (h : (sampleBoxes boxSize).inbox id = some files) :
    files = fun name => if name = boxInfoName then some (sampleHeader boxSize).write else none := by
  unfold sampleBoxes at h
  dsimp only at h
  split at h
  · cases h
    rfl
  · cases h

private theorem sampleBoxes_good {boxSize : Nat} (hsize : boxSize < 2 ^ 32) : Good (sampleBoxes boxSize) := by
  have hfits : (sampleHeader boxSize).Fits := by
    constructor
    case boxSize => exact hsize
    all_goals
      unfold sampleHeader
      norm_num
  have hread : CecBoxInfoHeader.read (sampleHeader boxSize).write = sampleHeader boxSize := by
    have happend := CecBoxInfoHeader.read_write hfits []
    rwa [List.append_nil] at happend
  constructor
  · intro id files hfiles _
    rw [sampleBoxes_inbox hfiles]
    refine ⟨(sampleHeader boxSize).write, [], if_pos rfl, ?_⟩
    constructor
    · exact Nat.le_of_eq (CecBoxInfoHeader.length_write _).symm
    · exact List.drop_of_length_le (Nat.le_of_eq (CecBoxInfoHeader.length_write _))
    · rw [hread, CecBoxInfoHeader.length_write]
      rfl
    · rw [hread]
      rfl
    · rw [hread]
      exact Nat.zero_le 1
    · exact List.nodup_nil
    · intro m hm
      cases hm
  · intro x hx
    cases hx
  · exact List.nodup_nil

private theorem sampleEntry_fresh (boxSize : Nat) : Fresh (sampleBoxes boxSize) sampleEntry := by
  refine ⟨rfl, rfl, ?_, ?_⟩
  · intro id
    unfold Boxes.file
    cases hinbox : (sampleBoxes boxSize).inbox id with
    | none => rfl
    | some files =>
      rw [Option.bind_some, sampleBoxes_inbox hinbox]
      exact if_neg (by decide)
  · intro x hx
    cases hx

end SweepDSEmu.StreetPass
