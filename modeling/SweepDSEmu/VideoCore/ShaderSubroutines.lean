import SweepDSEmu.VideoCore.ShaderControlFlow

/-!
# Subroutines of shaders

A scan visits offsets for its subroutine.  When every answer of the map is for an offset that was visited for the same
subroutine, its labels have the destinations of all jumps that are reached, and its exit method tells how its paths
end: `scan_sound`.

An answer from a scan that had not finished does no harm there.  That scan puts its labels into the same set.  It may
still find an exit that the answer does not tell of; but then the exit method of the subroutine tells of it, and what
the scans within it said does not matter.
-/

namespace SweepDSEmu.VideoCore.Shader

open Function

variable {program : ProgramCode}

/-- What a walk found is known: a jump goes to visited offsets and is in the labels, and what is behind a block is
visited unless the block ends the program. -/
def LinkedTo (subroutines : List Subroutine) (labels : Finset Nat) (visited : Nat → Prop) : Option (Nat × Flow) → Prop
  | none => True
  | some (_, .stop) => True
  | some (p, .jump dest) => dest ∈ labels ∧ visited (p + 1) ∧ visited dest
  | some (_, .block branches after) =>
    ∃ both, branchesExit subroutines branches = some both ∧ (both ≠ .alwaysEnd → visited after)

/-- The exit method of a subroutine whose paths never come to an exit. -/
def Exit.avoided : Exit → ExitMethod
  | .returned => .alwaysEnd
  | .ended => .alwaysReturn

def MayAvoid (exit : Exit) (m : ExitMethod) : Prop := m = exit.avoided ∨ m = .undetermined

def AvoidsAt (subroutines : List Subroutine) (exit : Exit) : Option (Nat × Flow) → Prop
  | none => exit ≠ .returned
  | some (_, .stop) => exit ≠ .ended
  | some (_, .jump _) => True
  | some (_, .block branches _) => exit = .ended → branchesExit subroutines branches = some .alwaysReturn

def Linked (program : ProgramCode) (subroutines : List Subroutine) (labels : Finset Nat) (visited : Nat → Prop)
    (stop offset : Nat) (m : ExitMethod) : Prop :=
  ∃ fuel result, walk program stop fuel offset = .ok result ∧ LinkedTo subroutines labels visited result ∧
    ∀ exit, MayAvoid exit m → AvoidsAt subroutines exit result

theorem branchesExit_mono {subroutines subroutines' : List Subroutine} (h : subroutines <+: subroutines')
    {branches : List (Option Range)} {both : ExitMethod} (hboth : branchesExit subroutines branches = some both) :
    branchesExit subroutines' branches = some both := by
  induction branches generalizing both with
  | nil => exact hboth
  | cons branch branches ih =>
    cases branch with
    | none =>
      rw [branchesExit, Option.map_eq_some_iff] at hboth ⊢
      obtain ⟨rest, hrest, heq⟩ := hboth
      exact ⟨rest, ih hrest, heq⟩
    | some range =>
      rw [branchesExit] at hboth ⊢
      cases hfind : subroutines.find? fun s => s.range = range with
      | none =>
        rw [hfind] at hboth
        cases hboth
      | some s =>
        obtain ⟨new, rfl⟩ := h
        rw [hfind] at hboth
        rw [List.find?_append, hfind, Option.some_or]
        rw [Option.map_eq_some_iff] at hboth ⊢
        obtain ⟨rest, hrest, heq⟩ := hboth
        exact ⟨rest, ih hrest, heq⟩

theorem Linked.mono {subroutines subroutines' : List Subroutine} {labels labels' : Finset Nat}
    {visited visited' : Nat → Prop} {stop offset : Nat} {m : ExitMethod}
    (h : Linked program subroutines labels visited stop offset m) (hsubroutines : subroutines <+: subroutines')
    (hlabels : labels ⊆ labels') (hvisited : ∀ p, visited p → visited' p) :
    Linked program subroutines' labels' visited' stop offset m := by
  obtain ⟨fuel, result, hwalk, hlinked, havoids⟩ := h
  refine ⟨fuel, result, hwalk, ?_, ?_⟩
  · rcases result with - | ⟨p, - | dest | ⟨branches, after⟩⟩
    · trivial
    · trivial
    · exact ⟨hlabels hlinked.1, hvisited _ hlinked.2.1, hvisited _ hlinked.2.2⟩
    · obtain ⟨both, hboth, hafter⟩ := hlinked
      exact ⟨both, branchesExit_mono hsubroutines hboth, fun h => hvisited _ (hafter h)⟩
  · intro exit hexit
    have havoids := havoids exit hexit
    rcases result with - | ⟨p, - | dest | ⟨branches, after⟩⟩
    · exact havoids
    · exact havoids
    · trivial
    · exact fun hended => branchesExit_mono hsubroutines (havoids hended)

private theorem walk_at {stop p fuel : Nat} {result : Option (Nat × Flow)} {next : Option Flow} (hp : p ≠ stop)
    (hflow : flowAt program p = some next) (h : walk program stop fuel p = .ok result) :
    match next with
    | none => ∃ fuel', walk program stop fuel' (p + 1) = .ok result
    | some flow => result = some (p, flow) := by
  cases fuel with
  | zero => cases h
  | succ fuel =>
    have hend : p ≠ programEnd := by
      rintro rfl
      cases hflow
    rw [walk, if_neg (not_or.mpr ⟨hp, hend⟩), hflow] at h
    cases next with
    | none => exact ⟨fuel, h⟩
    | some flow =>
      cases h
      rfl

/-- The labels of a subroutine whose visited offsets are all linked have the destinations of the jumps that are
reached. -/
theorem labelsComplete_of_linked {subroutines : List Subroutine} {s : Subroutine} {visited : Nat → Prop}
    (hbegin : visited s.range.1)
    (hlinked : ∀ p, visited p → ∃ m, Linked program subroutines s.labels visited s.range.2 p m) :
    LabelsComplete program subroutines s := by
  -- what is reached is on the walk from a visited offset
  have hreached (p : Nat) (h : Relation.ReflTransGen (Follows program subroutines s.range.2) s.range.1 p) :
      ∃ m, Linked program subroutines s.labels visited s.range.2 p m := by
    induction h with
    | refl => exact hlinked _ hbegin
    | @tail p q hpath hstep ih =>
      obtain ⟨m, fuel, result, hwalk, hresult, havoids⟩ := ih
      obtain ⟨hp, hstep⟩ := hstep
      split at hstep
      case h_1 => exact hstep.elim
      case h_2 hflow =>
        obtain ⟨fuel', hnext⟩ := walk_at hp hflow hwalk
        rw [hstep]
        exact ⟨m, fuel', result, hnext, hresult, havoids⟩
      case h_3 => exact hstep.elim
      case h_4 dest hflow =>
        cases walk_at hp hflow hwalk
        rcases hstep with rfl | rfl
        · exact hlinked _ hresult.2.1
        · exact hlinked _ hresult.2.2
      case h_5 branches after hflow =>
        cases walk_at hp hflow hwalk
        obtain ⟨rfl, both, hboth, hne⟩ := hstep
        obtain ⟨both', hboth', hafter⟩ := hresult
        rw [hboth] at hboth'
        cases hboth'
        exact hlinked _ (hafter hne)
  intro p dest hpath hp hflow
  obtain ⟨m, fuel, result, hwalk, hresult, -⟩ := hreached p hpath
  cases walk_at hp hflow hwalk
  exact hresult.1

theorem branchesExit_sound {subroutines : List Subroutine}
    (hexits : ∀ s ∈ subroutines, Determined program s.range s.exitMethod) {branches : List (Option Range)}
    {both : ExitMethod} (h : branchesExit subroutines branches = some both) : BranchesSound program branches both := by
  induction branches generalizing both with
  | nil =>
    cases h
    exact ⟨fun _ => rfl, by simp, by simp⟩
  | cons branch branches ih =>
    cases branch with
    | none =>
      rw [branchesExit, Option.map_eq_some_iff] at h
      obtain ⟨rest, hrest, rfl⟩ := h
      exact branchesSound_cons (by decide) (fun h => by cases h) (fun _ range h => by cases h) (ih hrest)
    | some range =>
      rw [branchesExit] at h
      split at h
      case h_1 => cases h
      case h_2 s hfind =>
        rw [Option.map_eq_some_iff] at h
        obtain ⟨rest, hrest, rfl⟩ := h
        obtain ⟨hne, hend, hreturn⟩ := hexits s (List.mem_of_find?_eq_some hfind)
        have hrange : s.range = range := by simpa using List.find?_some hfind
        rw [hrange] at hend hreturn
        refine branchesSound_cons hne (fun h => ⟨range, rfl, hend h⟩) ?_ (ih hrest)
        intro h r hr
        cases hr
        exact hreturn h

theorem not_reaches_of_linked {subroutines : List Subroutine} {labels : Finset Nat} {visited : Nat → Prop} {stop : Nat}
    {exit : Exit} (hexits : ∀ s ∈ subroutines, Determined program s.range s.exitMethod)
    (hlinked : ∀ p, visited p → ∃ m, MayAvoid exit m ∧ Linked program subroutines labels visited stop p m) {p : Nat}
    (hp : visited p) : ¬ Reaches program stop p exit := by
  -- what comes after an offset on the walk from a visited one
  have known (q : Nat) (hq : visited q) : ∃ fuel result, walk program stop fuel q = .ok result ∧
      LinkedTo subroutines labels visited result ∧ AvoidsAt subroutines exit result := by
    obtain ⟨m, hm, fuel, result, hwalk, hresult, havoids⟩ := hlinked q hq
    exact ⟨fuel, result, hwalk, hresult, havoids exit hm⟩
  suffices h : ∀ stop' q exit', Reaches program stop' q exit' → stop' = stop → exit' = exit →
      (∃ fuel result, walk program stop fuel q = .ok result ∧ LinkedTo subroutines labels visited result ∧
        AvoidsAt subroutines exit result) → False from
    fun hreaches => h stop p exit hreaches rfl rfl (known p hp)
  intro stop' q exit' hreaches
  induction hreaches with
  | done stop' =>
    rintro rfl rfl ⟨fuel, result, hwalk, -, havoids⟩
    cases fuel with
    | zero => cases hwalk
    | succ fuel =>
      rw [walk, if_pos (.inl rfl)] at hwalk
      cases hwalk
      exact havoids rfl
  | next hp hflow h ih =>
    rintro rfl rfl ⟨fuel, result, hwalk, hresult, havoids⟩
    obtain ⟨fuel', hnext⟩ := walk_at hp hflow hwalk
    exact ih rfl rfl ⟨fuel', result, hnext, hresult, havoids⟩
  | ended hp hflow =>
    rintro rfl rfl ⟨fuel, result, hwalk, -, havoids⟩
    cases walk_at hp hflow hwalk
    exact havoids rfl
  | noJump hp hflow h ih =>
    rintro rfl rfl ⟨fuel, result, hwalk, hresult, -⟩
    cases walk_at hp hflow hwalk
    exact ih rfl rfl (known _ hresult.2.1)
  | jump hp hflow h ih =>
    rintro rfl rfl ⟨fuel, result, hwalk, hresult, -⟩
    cases walk_at hp hflow hwalk
    exact ih rfl rfl (known _ hresult.2.2)
  | skip hp hflow hskip h ih =>
    rintro rfl rfl ⟨fuel, result, hwalk, hresult, -⟩
    cases walk_at hp hflow hwalk
    obtain ⟨both, hboth, hafter⟩ := hresult
    refine ih rfl rfl (known _ (hafter ?_))
    intro hend
    obtain ⟨range, heq, -⟩ := (branchesExit_sound hexits hboth).alwaysEnd hend none hskip
    cases heq
  | branch hp hflow hrange hbranch h ihBranch ih =>
    rintro rfl rfl ⟨fuel, result, hwalk, hresult, -⟩
    cases walk_at hp hflow hwalk
    obtain ⟨both, hboth, hafter⟩ := hresult
    refine ih rfl rfl (known _ (hafter ?_))
    intro hend
    obtain ⟨range, heq, hnot⟩ := (branchesExit_sound hexits hboth).alwaysEnd hend _ hrange
    cases heq
    exact hnot hbranch
  | branchEnded hp hflow hrange hbranch ih =>
    rintro rfl rfl ⟨fuel, result, hwalk, -, havoids⟩
    cases walk_at hp hflow hwalk
    exact (branchesExit_sound hexits (havoids rfl)).alwaysReturn rfl _ hrange hbranch

namespace Analyzer

variable {st st' st₁ st₂ : Analyzer} {range : Range} {id stop : Nat} {labels labels' : Finset Nat}

def Visited (st : Analyzer) (id stop p : Nat) : Prop :=
  ∃ entry, st.exitMethodMap (p, stop) = some entry ∧ entry.scan = id

/-- What is known where every answer was for the same subroutine. -/
structure ScanInv (program : ProgramCode) (st : Analyzer) : Prop where
  scan_lt : ∀ range entry, st.exitMethodMap range = some entry → entry.scan < st.nextScan
  exits : ∀ s ∈ st.subroutines, Determined program s.range s.exitMethod
  subroutines : ∀ s ∈ st.subroutines, ∃ visited : Nat → Prop, visited s.range.1 ∧
    ∀ p, visited p → ∃ m, Linked program st.subroutines s.labels visited s.range.2 p m

def Own (program : ProgramCode) (st : Analyzer) (id stop : Nat) (labels : Finset Nat) : Prop :=
  ∀ range entry, st.exitMethodMap range = some entry → entry.scan = id → range.2 = stop ∧ (entry.finished = true →
    Linked program st.subroutines labels (Visited st id stop) stop range.1 entry.exitMethod)

structure Grows (mine : Nat → Prop) (st st' : Analyzer) : Prop where
  subroutines : st.subroutines <+: st'.subroutines
  nextScan : st.nextScan ≤ st'.nextScan
  kept : ∀ range entry, st.exitMethodMap range = some entry → st'.exitMethodMap range = some entry
  new : ∀ range entry, st'.exitMethodMap range = some entry → st.exitMethodMap range = some entry ∨ mine entry.scan ∨
    st.nextScan ≤ entry.scan

theorem Grows.refl (mine : Nat → Prop) (st : Analyzer) : Grows mine st st :=
  ⟨List.prefix_refl _, le_rfl, fun _ _ h => h, fun _ _ h => .inl h⟩

theorem Grows.trans {mine : Nat → Prop} (h : Grows mine st st₁) (h' : Grows mine st₁ st₂) : Grows mine st st₂ where
  subroutines := h.subroutines.trans h'.subroutines
  nextScan := h.nextScan.trans h'.nextScan
  kept range entry hentry := h'.kept range entry (h.kept range entry hentry)
  new range entry hentry := by
    rcases h'.new range entry hentry with hold | hmine | hnew
    · exact h.new range entry hold
    · exact .inr (.inl hmine)
    · exact .inr (.inr (h.nextScan.trans hnew))

theorem Grows.visited {mine : Nat → Prop} (h : Grows mine st st') {p : Nat} (hp : Visited st id stop p) :
    Visited st' id stop p := by
  obtain ⟨entry, hentry, hscan⟩ := hp
  exact ⟨entry, h.kept _ _ hentry, hscan⟩

structure Scans (program : ProgramCode) (id stop : Nat) (ruledOut : Exit → Prop) (st : Analyzer) (labels : Finset Nat)
    (st' : Analyzer) (labels' : Finset Nat) : Prop where
  inv : ScanInv program st'
  grows : Grows (· = id) st st'
  labels : labels ⊆ labels'
  own : Own program st' id stop labels'
  finished : ∀ range entry, st'.exitMethodMap range = some entry → entry.scan = id →
    (entry.finished = true ∧ ∀ exit, ruledOut exit → MayAvoid exit entry.exitMethod) ∨
      st.exitMethodMap range = some entry

section

variable {ruledOut ruledOut' : Exit → Prop}

theorem Scans.weaken (h : Scans program id stop ruledOut st labels st' labels')
    (hexits : ∀ exit, ruledOut' exit → ruledOut exit) : Scans program id stop ruledOut' st labels st' labels' where
  inv := h.inv
  grows := h.grows
  labels := h.labels
  own := h.own
  finished range entry hentry hscan := by
    rcases h.finished range entry hentry hscan with ⟨hfinished, havoids⟩ | hold
    · exact .inl ⟨hfinished, fun exit hexit => havoids exit (hexits exit hexit)⟩
    · exact .inr hold

theorem Scans.trans {labels₁ labels₂ : Finset Nat} (h : Scans program id stop ruledOut st labels st₁ labels₁)
    (h' : Scans program id stop ruledOut st₁ labels₁ st₂ labels₂) :
    Scans program id stop ruledOut st labels st₂ labels₂ where
  inv := h'.inv
  grows := h.grows.trans h'.grows
  labels := h.labels.trans h'.labels
  own := h'.own
  finished range entry hentry hscan := by
    rcases h'.finished range entry hentry hscan with hfinished | hold
    · exact .inl hfinished
    · exact h.finished range entry hold hscan

theorem scans_of_adds (hinv : ScanInv program st') (hown : Own program st id stop labels) (hid : id < st.nextScan)
    (h : Grows (fun _ => False) st st') : Scans program id stop ruledOut st labels st' labels := by
  have hold (r : Range) (entry : Entry) (hentry : st'.exitMethodMap r = some entry) (hscan : entry.scan = id) :
      st.exitMethodMap r = some entry := by
    rcases h.new r entry hentry with hold | hfalse | hnew
    · exact hold
    · exact hfalse.elim
    · omega
  refine ⟨hinv, ⟨h.subroutines, h.nextScan, h.kept, ?_⟩, Finset.Subset.refl _, ?_, ?_⟩
  · intro r entry hentry
    rcases h.new r entry hentry with hold | hfalse | hnew
    · exact .inl hold
    · exact hfalse.elim
    · exact .inr (.inr hnew)
  · intro r entry hentry hscan
    obtain ⟨hstop, hlinked⟩ := hown r entry (hold r entry hentry hscan) hscan
    exact ⟨hstop, fun hf => (hlinked hf).mono h.subroutines (Finset.Subset.refl _) fun _ => h.visited⟩
  · exact fun r entry hentry hscan => .inr (hold r entry hentry hscan)

end

theorem enter_sound (hinv : ScanInv program st) (hown : Own program st id range.2 labels) (hid : id < st.nextScan)
    (hnew : st.exitMethodMap range = none) {entered : Finset Nat} (hlabels : labels ⊆ entered) :
    ScanInv program (st.enter range id) ∧ Grows (· = id) st (st.enter range id) ∧
      Own program (st.enter range id) id range.2 entered := by
  have hcases (r : Range) (entry : Entry) (h : (st.enter range id).exitMethodMap r = some entry) :
      st.exitMethodMap r = some entry ∨ (r = range ∧ entry.scan = id ∧ entry.finished = false) := by
    by_cases hr : r = range
    · subst hr
      simp only [Analyzer.enter, update_self, Option.some.injEq] at h
      subst h
      exact .inr ⟨rfl, rfl, rfl⟩
    · simp only [Analyzer.enter, update_of_ne hr] at h
      exact .inl h
  have hgrows : Grows (· = id) st (st.enter range id) := by
    refine ⟨List.prefix_refl _, le_rfl, ?_, ?_⟩
    · intro r entry hentry
      have hr : r ≠ range := by
        rintro rfl
        rw [hnew] at hentry
        cases hentry
      simpa only [Analyzer.enter, update_of_ne hr] using hentry
    · intro r entry hentry
      rcases hcases r entry hentry with hold | ⟨-, hscan, -⟩
      · exact .inl hold
      · exact .inr (.inl hscan)
  refine ⟨⟨?_, hinv.exits, hinv.subroutines⟩, hgrows, ?_⟩
  · intro r entry hentry
    rcases hcases r entry hentry with hold | ⟨-, hscan, -⟩
    · exact hinv.scan_lt r entry hold
    · rw [hscan]
      exact hid
  · intro r entry hentry hscan
    rcases hcases r entry hentry with hold | ⟨rfl, -, hunfinished⟩
    · obtain ⟨hstop, hlinked⟩ := hown r entry hold hscan
      exact ⟨hstop, fun hf => (hlinked hf).mono hgrows.subroutines hlabels fun _ => hgrows.visited⟩
    · refine ⟨rfl, ?_⟩
      intro hf
      rw [hunfinished] at hf
      cases hf

theorem leave_sound {entered : Finset Nat} {m : ExitMethod} (hgrows : Grows (· = id) st (st.enter range id))
    (hlabels : labels ⊆ entered) (hnew : st.exitMethodMap range = none)
    (h : Scans program id range.2 (MayAvoid · m) (st.enter range id) entered st' labels')
    (hlinked : Linked program st'.subroutines labels' (Visited st' id range.2) range.2 range.1 m) :
    Scans program id range.2 (MayAvoid · m) st labels (st'.leave range id m) labels' ∧
      Visited (st'.leave range id m) id range.2 range.1 := by
  have hcases (r : Range) (entry : Entry) (h : (st'.leave range id m).exitMethodMap r = some entry) :
      (r ≠ range ∧ st'.exitMethodMap r = some entry) ∨
        (r = range ∧ entry.scan = id ∧ entry.finished = true ∧ entry.exitMethod = m) := by
    by_cases hr : r = range
    · subst hr
      simp only [Analyzer.leave, update_self, Option.some.injEq] at h
      subst h
      exact .inr ⟨rfl, rfl, rfl, rfl⟩
    · simp only [Analyzer.leave, update_of_ne hr] at h
      exact .inl ⟨hr, h⟩
  have hkept (r : Range) (hr : r ≠ range) : (st'.leave range id m).exitMethodMap r = st'.exitMethodMap r := by
    simp only [Analyzer.leave, update_of_ne hr]
  have hself : ∃ entry, (st'.leave range id m).exitMethodMap range = some entry ∧ entry.scan = id :=
    ⟨_, update_self .., rfl⟩
  have hvisited (p : Nat) (hp : Visited st' id range.2 p) : Visited (st'.leave range id m) id range.2 p := by
    by_cases hr : (p, range.2) = range
    · rw [Visited, hr]
      exact hself
    · rw [Visited, hkept _ hr]
      exact hp
  have hall := hgrows.trans h.grows
  refine ⟨⟨⟨?_, h.inv.exits, h.inv.subroutines⟩, ⟨hall.subroutines, hall.nextScan, ?_, ?_⟩,
    hlabels.trans h.labels, ?_, ?_⟩, hself⟩
  · intro r entry hentry
    rcases hcases r entry hentry with ⟨-, hold⟩ | ⟨rfl, hscan, -⟩
    · exact h.inv.scan_lt r entry hold
    · obtain ⟨entry', hentry'⟩ : ∃ entry', st'.exitMethodMap r = some entry' ∧ entry'.scan = id := by
        refine ⟨_, h.grows.kept r _ (update_self ..), rfl⟩
      rw [hscan, ← hentry'.2]
      exact h.inv.scan_lt r entry' hentry'.1
  · intro r entry hentry
    have hr : r ≠ range := by
      rintro rfl
      rw [hnew] at hentry
      cases hentry
    rw [hkept r hr]
    exact hall.kept r entry hentry
  · intro r entry hentry
    rcases hcases r entry hentry with ⟨-, hold⟩ | ⟨-, hscan, -⟩
    · exact hall.new r entry hold
    · exact .inr (.inl hscan)
  · intro r entry hentry hscan
    rcases hcases r entry hentry with ⟨-, hold⟩ | ⟨rfl, -, -, hm⟩
    · obtain ⟨hstop, hl⟩ := h.own r entry hold hscan
      exact ⟨hstop, fun hf => (hl hf).mono (List.prefix_refl _) (Finset.Subset.refl _) hvisited⟩
    · rw [hm]
      exact ⟨rfl, fun _ => hlinked.mono (List.prefix_refl _) (Finset.Subset.refl _) hvisited⟩
  · intro r entry hentry hscan
    rcases hcases r entry hentry with ⟨hr, hold⟩ | ⟨-, -, hfinished, hm⟩
    · rcases h.finished r entry hold hscan with hfinished | hentered
      · exact .inl hfinished
      · right
        simpa only [Analyzer.enter, update_of_ne hr] using hentered
    · rw [hm]
      exact .inl ⟨hfinished, fun _ hexit => hexit⟩

theorem mayAvoid_of_parallelExit {exit : Exit} {a b : ExitMethod} (h : MayAvoid exit (parallelExit a b)) :
    MayAvoid exit a ∧ MayAvoid exit b := by
  cases exit <;> cases a <;> cases b <;> simp_all [MayAvoid, Exit.avoided, parallelExit]

theorem mayAvoid_of_seriesExit {exit : Exit} {a b : ExitMethod} (ha : a ≠ .undetermined)
    (h : MayAvoid exit (seriesExit a b)) : MayAvoid exit b ∧ (exit = .ended → a = .alwaysReturn) := by
  cases exit <;> cases a <;> cases b <;> simp_all [MayAvoid, Exit.avoided, seriesExit]

def ScanSound (program : ProgramCode) (id : Nat) (range : Range) (st : Analyzer) (labels : Finset Nat)
    (result : Scanned) : Prop :=
  ∀ m st' labels', result = .ok (m, st', labels') → st'.foreign = false →
    st.foreign = false ∧ (ScanInv program st → Own program st id range.2 labels → id < st.nextScan →
      Scans program id range.2 (MayAvoid · m) st labels st' labels' ∧ Visited st' id range.2 range.1)

structure Analyzed (program : ProgramCode) (st : Analyzer) (range : Range) (m : ExitMethod) (labels : Finset Nat) :
    Prop where
  exit : m ≠ .undetermined → Determined program range m
  linked : ∃ visited : Nat → Prop, visited range.1 ∧
    ∀ p, visited p → ∃ m, Linked program st.subroutines labels visited range.2 p m

theorem analyzed_of_scan {scan : Nat → Range → Analyzer → Finset Nat → Scanned} {m : ExitMethod}
    (hscan : ∀ id range st labels, ScanSound program id range st labels (scan id range st labels))
    (h : scan st.nextScan range { st with nextScan := st.nextScan + 1 } ∅ = .ok (m, st', labels))
    (hforeign : st'.foreign = false) :
    st.foreign = false ∧ (ScanInv program st →
      ScanInv program st' ∧ Grows (fun _ => False) st st' ∧ Analyzed program st' range m labels) := by
  obtain ⟨hbefore, hpost⟩ := hscan _ _ _ _ _ _ _ h hforeign
  refine ⟨hbefore, fun hinv => ?_⟩
  have hfresh (r : Range) (entry : Entry) (hentry : st.exitMethodMap r = some entry) : entry.scan ≠ st.nextScan :=
    (hinv.scan_lt r entry hentry).ne
  have hinv₀ : ScanInv program { st with nextScan := st.nextScan + 1 } :=
    ⟨fun r entry hentry => (hinv.scan_lt r entry hentry).trans (Nat.lt_succ_self _), hinv.exits, hinv.subroutines⟩
  obtain ⟨hscans, hvisited⟩ := hpost hinv₀
    (fun r entry hentry hscan => absurd hscan (hfresh r entry hentry)) (Nat.lt_succ_self _)
  -- all offsets that were visited for the scan were visited by it
  have hlinked (p : Nat) (hp : Visited st' st.nextScan range.2 p) : ∃ m', (∀ exit, MayAvoid exit m → MayAvoid exit m') ∧
      Linked program st'.subroutines labels (Visited st' st.nextScan range.2) range.2 p m' := by
    obtain ⟨entry, hentry, hentryScan⟩ := hp
    rcases hscans.finished _ entry hentry hentryScan with ⟨hfinished, havoids⟩ | hold
    · exact ⟨entry.exitMethod, havoids, (hscans.own _ entry hentry hentryScan).2 hfinished⟩
    · exact absurd hentryScan (hfresh _ entry hold)
  have hnot (exit : Exit) (hm : m = exit.avoided) : ¬ Reaches program range.2 range.1 exit := by
    have hvisits (p : Nat) (hp : Visited st' st.nextScan range.2 p) : ∃ m', MayAvoid exit m' ∧
        Linked program st'.subroutines labels (Visited st' st.nextScan range.2) range.2 p m' := by
      obtain ⟨m', havoids, hl⟩ := hlinked p hp
      exact ⟨m', havoids exit (.inl hm), hl⟩
    exact not_reaches_of_linked hscans.inv.exits hvisits hvisited
  refine ⟨hscans.inv, ?_, ?_, Visited st' st.nextScan range.2, hvisited, ?_⟩
  · refine ⟨hscans.grows.subroutines, (Nat.le_succ _).trans hscans.grows.nextScan, hscans.grows.kept, ?_⟩
    intro r entry hentry
    rcases hscans.grows.new r entry hentry with hold | hmine | hnew
    · exact .inl hold
    · exact .inr (.inr hmine.ge)
    · exact .inr (.inr ((Nat.le_succ _).trans hnew))
  · exact fun hne => ⟨hne, hnot .returned, hnot .ended⟩
  · intro p hp
    obtain ⟨m', -, hl⟩ := hlinked p hp
    exact ⟨m', hl⟩

theorem addSubroutine_sound {scan : Nat → Range → Analyzer → Finset Nat → Scanned}
    (hscan : ∀ id range st labels, ScanSound program id range st labels (scan id range st labels)) {s : Subroutine}
    (h : addSubroutine scan st range = .ok (s, st')) (hforeign : st'.foreign = false) :
    st.foreign = false ∧ (ScanInv program st → ScanInv program st' ∧ Grows (fun _ => False) st st' ∧
      (st'.subroutines.find? fun s => s.range = range) = some s) := by
  unfold addSubroutine at h
  split at h
  case h_1 subroutine hfind =>
    cases h
    exact ⟨hforeign, fun hinv => ⟨hinv, Grows.refl _ _, hfind⟩⟩
  case h_2 =>
    split at h
    case h_1 => cases h
    case h_2 m st₁ labels hresult =>
      split at h
      case isTrue => cases h
      case isFalse hne =>
        split at h
        case h_1 subroutine hfind =>
          cases h
          obtain ⟨hbefore, hpost⟩ := analyzed_of_scan hscan hresult hforeign
          exact ⟨hbefore, fun hinv => ⟨(hpost hinv).1, (hpost hinv).2.1, hfind⟩⟩
        case h_2 hfind =>
          cases h
          obtain ⟨hbefore, hpost⟩ := analyzed_of_scan hscan hresult hforeign
          refine ⟨hbefore, fun hinv => ?_⟩
          obtain ⟨hinv₁, hgrows, hexit, visited, hbegin, hlinked⟩ := hpost hinv
          have hsubs : st₁.subroutines <+: st₁.subroutines ++ [⟨range, m, labels⟩] := List.prefix_append _ _
          have hmono {s' : Subroutine} {v : Nat → Prop} (h : ∀ p, v p → ∃ m,
              Linked program st₁.subroutines s'.labels v s'.range.2 p m) (p : Nat) (hp : v p) :
              ∃ m', Linked program (st₁.subroutines ++ [⟨range, m, labels⟩]) s'.labels v s'.range.2 p m' := by
            obtain ⟨m', hl⟩ := h p hp
            exact ⟨m', hl.mono hsubs (Finset.Subset.refl _) fun _ h => h⟩
          refine ⟨⟨hinv₁.scan_lt, ?_, ?_⟩, ?_, ?_⟩
          · intro s hs
            rcases List.mem_append.mp hs with hs | hs
            · exact hinv₁.exits s hs
            · rw [List.mem_singleton.mp hs]
              exact hexit hne
          · intro s hs
            rcases List.mem_append.mp hs with hs | hs
            · obtain ⟨v, hv, hl⟩ := hinv₁.subroutines s hs
              exact ⟨v, hv, hmono hl⟩
            · rw [List.mem_singleton.mp hs]
              exact ⟨visited, hbegin, hmono hlinked⟩
          · exact ⟨hgrows.subroutines.trans hsubs, hgrows.nextScan, hgrows.kept, hgrows.new⟩
          · rw [List.find?_append, hfind]
            simp

theorem addBranches_sound {add : Analyzer → Range → Except Failure (Subroutine × Analyzer)}
    (hadd : ∀ st range s st', add st range = .ok (s, st') → st'.foreign = false →
      st.foreign = false ∧ (ScanInv program st → ScanInv program st' ∧ Grows (fun _ => False) st st' ∧
        (st'.subroutines.find? fun s => s.range = range) = some s))
    {branches : List (Option Range)} {both : ExitMethod} (h : addBranches add st branches = .ok (both, st'))
    (hforeign : st'.foreign = false) :
    st.foreign = false ∧ (ScanInv program st → ScanInv program st' ∧ Grows (fun _ => False) st st' ∧
      branchesExit st'.subroutines branches = some both) := by
  induction branches generalizing st both with
  | nil =>
    cases h
    exact ⟨hforeign, fun hinv => ⟨hinv, Grows.refl _ _, rfl⟩⟩
  | cons branch branches ih =>
    cases branch with
    | none =>
      rw [addBranches] at h
      split at h
      case h_1 => cases h
      case h_2 rest st₁ hrest =>
        cases h
        obtain ⟨hbefore, hpost⟩ := ih hrest
        refine ⟨hbefore, fun hinv => ?_⟩
        obtain ⟨hinv', hgrows, hboth⟩ := hpost hinv
        refine ⟨hinv', hgrows, ?_⟩
        rw [branchesExit, hboth]
        rfl
    | some range =>
      rw [addBranches] at h
      split at h
      case h_1 => cases h
      case h_2 s st₁ hs =>
        split at h
        case h_1 => cases h
        case h_2 rest st₂ hrest =>
          cases h
          obtain ⟨hbetween, hpost⟩ := ih hrest
          obtain ⟨hbefore, hpost'⟩ := hadd _ _ _ _ hs hbetween
          refine ⟨hbefore, fun hinv => ?_⟩
          obtain ⟨hinv₁, hgrows₁, hfind⟩ := hpost' hinv
          obtain ⟨hinv₂, hgrows₂, hboth⟩ := hpost hinv₁
          refine ⟨hinv₂, hgrows₁.trans hgrows₂, ?_⟩
          obtain ⟨new, hnew⟩ := hgrows₂.subroutines
          rw [branchesExit, hboth, ← hnew, List.find?_append, hfind]
          rfl

private theorem scans_refl (ruledOut : Exit → Prop) (hinv : ScanInv program st)
    (hown : Own program st id stop labels) : Scans program id stop ruledOut st labels st labels :=
  ⟨hinv, Grows.refl _ _, Finset.Subset.refl _, hown, fun _ _ h _ => .inr h⟩

theorem scan_sound (fuel id : Nat) (range : Range) (st : Analyzer) (labels : Finset Nat) :
    ScanSound program id range st labels (scan program fuel id range st labels) := by
  induction fuel generalizing id range st labels with
  | zero =>
    intro m st' labels' h
    cases h
  | succ fuel ih =>
    intro m st' labels' h hforeign
    rw [scan] at h
    split at h
    case h_1 entry hentry =>
      cases h
      obtain ⟨hbefore, hscan⟩ : st.foreign = false ∧ entry.scan = id := by simpa [answer] using hforeign
      refine ⟨hbefore, fun hinv hown hid => ?_⟩
      refine ⟨⟨⟨hinv.scan_lt, hinv.exits, hinv.subroutines⟩, ?_, Finset.Subset.refl _, hown, fun _ _ h _ => .inr h⟩,
        entry, hentry, hscan⟩
      exact ⟨List.prefix_refl _, le_rfl, fun _ _ h => h, fun _ _ h => .inl h⟩
    case h_2 hnew =>
      dsimp only at h
      split at h
      case h_1 => cases h
      case h_2 hwalk =>
        cases h
        refine ⟨hforeign, fun hinv hown hid => ?_⟩
        obtain ⟨hinv₀, hgrows, hown₀⟩ := enter_sound hinv hown hid hnew (Finset.Subset.refl _)
        refine leave_sound hgrows (Finset.Subset.refl _) hnew (scans_refl _ hinv₀ hown₀) ⟨_, _, hwalk, trivial, ?_⟩
        rintro exit hexit rfl
        simp [MayAvoid, Exit.avoided] at hexit
      case h_3 p hwalk =>
        cases h
        refine ⟨hforeign, fun hinv hown hid => ?_⟩
        obtain ⟨hinv₀, hgrows, hown₀⟩ := enter_sound hinv hown hid hnew (Finset.Subset.refl _)
        refine leave_sound hgrows (Finset.Subset.refl _) hnew (scans_refl _ hinv₀ hown₀) ⟨_, _, hwalk, trivial, ?_⟩
        rintro exit hexit rfl
        simp [MayAvoid, Exit.avoided] at hexit
      case h_4 p dest hwalk =>
        split at h
        case h_1 => cases h
        case h_2 noJmp st₁ labels₁ hno =>
          split at h
          case h_1 => cases h
          case h_2 jmp st₂ labels₂ hjmp =>
            cases h
            obtain ⟨hbetween, hpost₂⟩ := ih _ _ _ _ _ _ _ hjmp hforeign
            obtain ⟨hbefore, hpost₁⟩ := ih _ _ _ _ _ _ _ hno hbetween
            refine ⟨hbefore, fun hinv hown hid => ?_⟩
            have hinsert : labels ⊆ insert dest labels := Finset.subset_insert _ _
            obtain ⟨hinv₀, hgrows, hown₀⟩ := enter_sound hinv hown hid hnew hinsert
            obtain ⟨hscans₁, hvisited₁⟩ := hpost₁ hinv₀ hown₀ hid
            obtain ⟨hscans₂, hvisited₂⟩ := hpost₂ hscans₁.inv hscans₁.own (hid.trans_le hscans₁.grows.nextScan)
            -- an exit that both ways may avoid
            have hscans := (hscans₁.weaken fun _ h => (mayAvoid_of_parallelExit h).1).trans
              (hscans₂.weaken fun _ h => (mayAvoid_of_parallelExit h).2)
            refine leave_sound hgrows hinsert hnew hscans ⟨_, _, hwalk, ⟨?_, ?_, hvisited₂⟩, fun _ _ => trivial⟩
            · exact hscans₂.labels (hscans₁.labels (Finset.mem_insert_self _ _))
            · exact hscans₂.grows.visited hvisited₁
      case h_5 p branches after hwalk =>
        split at h
        case h_1 => cases h
        case h_2 both st₁ hbranches =>
          have hadds := addBranches_sound
            (fun st range s st' hs hst' => addSubroutine_sound ih hs hst') hbranches
          split at h
          case isTrue hend =>
            cases h
            obtain ⟨hbefore, hpost⟩ := hadds hforeign
            refine ⟨hbefore, fun hinv hown hid => ?_⟩
            obtain ⟨hinv₀, hgrows, hown₀⟩ := enter_sound hinv hown hid hnew (Finset.Subset.refl _)
            obtain ⟨hinv₁, hgrows₁, hboth⟩ := hpost hinv₀
            refine leave_sound hgrows (Finset.Subset.refl _) hnew (scans_of_adds hinv₁ hown₀ hid hgrows₁)
              ⟨_, _, hwalk, ⟨both, hboth, fun hne => absurd hend hne⟩, ?_⟩
            rintro exit hexit rfl
            simp [MayAvoid, Exit.avoided] at hexit
          case isFalse hend =>
            split at h
            case h_1 => cases h
            case h_2 afterCall st₂ labels₂ hafter =>
              cases h
              obtain ⟨hbetween, hpost₂⟩ := ih _ _ _ _ _ _ _ hafter hforeign
              obtain ⟨hbefore, hpost⟩ := hadds hbetween
              refine ⟨hbefore, fun hinv hown hid => ?_⟩
              obtain ⟨hinv₀, hgrows, hown₀⟩ := enter_sound hinv hown hid hnew (Finset.Subset.refl _)
              obtain ⟨hinv₁, hgrows₁, hboth⟩ := hpost hinv₀
              have hscans₁ : Scans program id range.2 (MayAvoid · (seriesExit both afterCall)) (st.enter range id)
                  labels st₁ labels := scans_of_adds hinv₁ hown₀ hid hgrows₁
              obtain ⟨hscans₂, hvisited₂⟩ := hpost₂ hscans₁.inv hscans₁.own (hid.trans_le hscans₁.grows.nextScan)
              have hne : both ≠ .undetermined := fun h =>
                branches_ne_nil (walk_sound hwalk).2.1 ((branchesExit_sound hinv₁.exits hboth).undetermined h)
              have hscans := hscans₁.trans (hscans₂.weaken fun _ h => (mayAvoid_of_seriesExit hne h).1)
              have hboth₂ := branchesExit_mono hscans₂.grows.subroutines hboth
              refine leave_sound hgrows (Finset.Subset.refl _) hnew hscans
                ⟨_, _, hwalk, ⟨both, hboth₂, fun _ => hvisited₂⟩, ?_⟩
              intro exit hexit hended
              rw [hboth₂, (mayAvoid_of_seriesExit hne hexit).2 hended]

/-- What is known of the subroutines that are returned: all of it when no answer was for another subroutine, and their
exit methods also when none came from a scan that had not finished. -/
theorem analyze_sound {fuel mainOffset : Nat} {st : Analyzer} (h : analyze fuel program mainOffset = .ok st) :
    (st.foreign = false → ∀ s ∈ st.subroutines,
      LabelsComplete program st.subroutines s ∧ ExitSound program s.range s.exitMethod) ∧
    (st.unfinished = false → ∀ s ∈ st.subroutines, ExitSound program s.range s.exitMethod) := by
  unfold analyze at h
  split at h
  case h_1 => cases h
  case h_2 programMain st' hmain =>
    split at h
    case isTrue => cases h
    case isFalse =>
      cases h
      constructor
      · intro hforeign s hs
        obtain ⟨-, hpost⟩ := addSubroutine_sound (scan_sound fuel) hmain hforeign
        obtain ⟨hinv, -, -⟩ := hpost ⟨(fun _ _ h => by cases h), (fun _ h => by cases h), fun _ h => by cases h⟩
        obtain ⟨visited, hbegin, hlinked⟩ := hinv.subroutines s hs
        exact ⟨labelsComplete_of_linked hbegin hlinked, (hinv.exits s hs).2⟩
      · intro hunfinished s hs
        obtain ⟨-, hpost⟩ := addSubroutine_exits (scan_exits fuel) hmain hunfinished
        obtain ⟨hinv, -⟩ := hpost ⟨(fun _ h => by cases h), fun _ _ h => by cases h⟩
        exact (hinv.subroutines s hs).2

def analyzed (fuel : Nat) (program : ProgramCode) (mainOffset : Nat) : Option (List Subroutine) :=
  match analyze fuel program mainOffset with
  | .ok st => some st.subroutines
  | .error _ => none

theorem analyzed_eq_some {fuel mainOffset : Nat} {subroutines : List Subroutine}
    (h : analyzed fuel program mainOffset = some subroutines) :
    ∃ st, analyze fuel program mainOffset = .ok st ∧ st.subroutines = subroutines := by
  unfold analyzed at h
  split at h
  case h_1 st hst => exact ⟨st, hst, Option.some.inj h⟩
  case h_2 => cases h

theorem mem_analyzed {fuel mainOffset : Nat} {s : Subroutine}
    (h : ((analyzed fuel program mainOffset).any fun subroutines => decide (s ∈ subroutines)) = true) :
    ∃ st, analyze fuel program mainOffset = .ok st ∧ s ∈ st.subroutines := by
  obtain ⟨subroutines, hsubroutines, hs⟩ := (Option.any_eq_true _ _).mp h
  obtain ⟨st, hst, rfl⟩ := analyzed_eq_some hsubroutines
  exact ⟨st, hst, by simpa using hs⟩

def loopedJumps : ProgramCode := fun p =>
  match p.val with
  | 0 => { opcode := .callc, destOffset := 6, numInstructions := 2 }
  | 1 => { opcode := .endProgram }
  | 6 => { opcode := .jmpc, destOffset := 6 }
  | _ => { opcode := .other 0 }

theorem loopedJumps_sound : ∃ st, analyze 20 loopedJumps 0 = .ok st ∧ ⟨(6, 8), .alwaysReturn, {6}⟩ ∈ st.subroutines ∧
    ∀ s ∈ st.subroutines, LabelsComplete loopedJumps st.subroutines s ∧ ExitSound loopedJumps s.range s.exitMethod := by
  have hforeign : (match analyze 20 loopedJumps 0 with | .ok st => st.foreign | .error _ => true) = false := by decide
  obtain ⟨st, hst, hs⟩ : ∃ st, analyze 20 loopedJumps 0 = .ok st ∧ ⟨(6, 8), .alwaysReturn, {6}⟩ ∈ st.subroutines :=
    mem_analyzed (by decide)
  rw [hst] at hforeign
  exact ⟨st, hst, hs, (analyze_sound hst).1 hforeign⟩

/-- Two subroutines with the same return point run through the same jumps. -/
def sharedJumps : ProgramCode := fun p =>
  match p.val with
  | 0 => { opcode := .call, destOffset := 4, numInstructions := 4 }
  | 1 => { opcode := .call, destOffset := 3, numInstructions := 5 }
  | 2 => { opcode := .endProgram }
  | 4 => { opcode := .jmpc, destOffset := 6 }
  | 5 => { opcode := .jmpc, destOffset := 7 }
  | _ => { opcode := .other 0 }

/-- The second one does not get the label 7. -/
theorem sharedJumps_not_complete : ∃ st s, analyze 20 sharedJumps 0 = .ok st ∧ s ∈ st.subroutines ∧
    ¬ LabelsComplete sharedJumps st.subroutines s := by
  obtain ⟨st, hst, hs⟩ : ∃ st, analyze 20 sharedJumps 0 = .ok st ∧ ⟨(3, 8), .alwaysReturn, {6}⟩ ∈ st.subroutines :=
    mem_analyzed (by decide)
  refine ⟨st, _, hst, hs, ?_⟩
  intro hcomplete
  have hfirst : Follows sharedJumps st.subroutines 8 3 4 := ⟨by decide, rfl⟩
  have hsecond : Follows sharedJumps st.subroutines 8 4 5 := ⟨by decide, .inl rfl⟩
  have hlabel := hcomplete 5 7 ((Relation.ReflTransGen.single hfirst).tail hsecond) (by decide) rfl
  exact absurd hlabel (by decide)

end Analyzer

end SweepDSEmu.VideoCore.Shader
