import Mathlib.Tactic.Common

/-!
# Segments of doubly linked lists

Nodes are linked by two functions `next` and `prev`.  `LinkedSegment next prev null p s l q e` says that the links lead from
the pointer `s` through exactly the nodes of `l` to the pointer `e`, that the node before the segment is `p` and that
the last node on the way is `q`.

A half-circular list ends in the null pointer, but the first node has the last one before it: `HalfCircular`.
-/

namespace SweepDSEmu

variable {A : Type} {next prev next' prev' : A → A} {null : A}

/-- The links lead from `s`, with `p` before it, through the nodes of `l` to `e`, with `q` before it. -/
def LinkedSegment (next prev : A → A) (null : A) : A → A → List A → A → A → Prop
  | p, s, [], q, e => s = e ∧ p = q
  | p, s, a :: l, q, e => s = a ∧ a ≠ null ∧ prev a = p ∧ LinkedSegment next prev null a (next a) l q e

/-- The links lead from `head` through the nodes of `l` to the null pointer, and back from the first to the last. -/
def HalfCircular (next prev : A → A) (null head : A) (l : List A) : Prop :=
  ∃ last, LinkedSegment next prev null last head l last null

namespace LinkedSegment

theorem append {p s q e : A} {l₁ l₂ : List A} :
    LinkedSegment next prev null p s (l₁ ++ l₂) q e ↔
      ∃ p' s', LinkedSegment next prev null p s l₁ p' s' ∧ LinkedSegment next prev null p' s' l₂ q e := by
  induction l₁ generalizing p s with
  | nil =>
    constructor
    · intro h
      exact ⟨p, s, ⟨rfl, rfl⟩, h⟩
    · rintro ⟨p', s', ⟨rfl, rfl⟩, h⟩
      exact h
  | cons a l ih =>
    simp only [List.cons_append, LinkedSegment, ih]
    constructor
    · rintro ⟨hs, ha, hp, p', s', h₁, h₂⟩
      exact ⟨p', s', ⟨hs, ha, hp, h₁⟩, h₂⟩
    · rintro ⟨p', s', ⟨hs, ha, hp, h₁⟩, h₂⟩
      exact ⟨hs, ha, hp, p', s', h₁, h₂⟩

theorem congr {p s q e : A} {l : List A} (h : LinkedSegment next prev null p s l q e) (hn : ∀ a ∈ l, next' a = next a)
    (hp : ∀ a ∈ l, prev' a = prev a) : LinkedSegment next' prev' null p s l q e := by
  induction l generalizing p s with
  | nil => exact h
  | cons a l ih =>
    obtain ⟨hs, ha, hpa, h⟩ := h
    refine ⟨hs, ha, (hp a List.mem_cons_self).trans hpa, ?_⟩
    rw [hn a List.mem_cons_self]
    exact ih h (fun b hb => hn b (List.mem_cons_of_mem _ hb)) fun b hb => hp b (List.mem_cons_of_mem _ hb)

theorem relinkHead {p p' s q e a : A} {l : List A} (h : LinkedSegment next prev null p s (a :: l) q e)
    (hn : ∀ b ∈ a :: l, next' b = next b) (ha : prev' a = p') (hp : ∀ b ∈ l, prev' b = prev b) :
    LinkedSegment next' prev' null p' s (a :: l) q e := by
  obtain ⟨hs, hnull, -, h⟩ := h
  refine ⟨hs, hnull, ha, ?_⟩
  rw [hn a List.mem_cons_self]
  exact h.congr (fun b hb => hn b (List.mem_cons_of_mem _ hb)) hp

theorem relinkLast {p s q e e' a : A} {l : List A} (h : LinkedSegment next prev null p s (l ++ [a]) q e)
    (hn : ∀ b ∈ l, next' b = next b) (ha : next' a = e') (hp : ∀ b ∈ l ++ [a], prev' b = prev b) :
    LinkedSegment next' prev' null p s (l ++ [a]) q e' := by
  obtain ⟨p', s', h₁, hs, hnull, hpa, -, hq⟩ := append.1 h
  refine append.2 ⟨p', s', ?_, hs, hnull, ?_, ha, hq⟩
  · exact h₁.congr hn fun b hb => hp b (List.mem_append_left _ hb)
  · exact (hp a (by simp)).trans hpa

theorem last_eq {p s q e a : A} {l : List A} (h : LinkedSegment next prev null p s (l ++ [a]) q e) : a = q ∧ next a = e := by
  obtain ⟨p', s', -, -, -, -, he, hq⟩ := append.1 h
  exact ⟨hq, he⟩

theorem ne_null {p s q e : A} {l : List A} (h : LinkedSegment next prev null p s l q e) : ∀ a ∈ l, a ≠ null := by
  induction l generalizing p s with
  | nil => simp
  | cons a l ih =>
    obtain ⟨-, ha, -, h⟩ := h
    intro b hb
    rcases List.mem_cons.mp hb with rfl | hb
    · exact ha
    · exact ih h b hb

theorem isChain_prev {p s q e : A} {l : List A} (h : LinkedSegment next prev null p s l q e) :
    l.IsChain fun a b => prev b = a := by
  induction l generalizing p s with
  | nil => exact List.IsChain.nil
  | cons a l ih =>
    obtain ⟨-, -, -, h⟩ := h
    cases l with
    | nil => exact List.IsChain.singleton a
    | cons b l =>
      obtain ⟨hb, hnull, hprev, h'⟩ := h
      exact List.IsChain.cons_cons hprev (ih ⟨hb, hnull, hprev, h'⟩)

end LinkedSegment

namespace HalfCircular

theorem nil : HalfCircular next prev null null ([] : List A) := ⟨null, rfl, rfl⟩

theorem congr {head : A} {l : List A} (h : HalfCircular next prev null head l) (hn : ∀ a ∈ l, next' a = next a)
    (hp : ∀ a ∈ l, prev' a = prev a) : HalfCircular next' prev' null head l := by
  obtain ⟨last, h⟩ := h
  exact ⟨last, h.congr hn hp⟩

theorem singleton {a : A} (ha : a ≠ null) (hn : next' a = null) (hp : prev' a = a) :
    HalfCircular next' prev' null a [a] := ⟨a, rfl, ha, hp, hn, rfl⟩

theorem head_eq {head a : A} {l : List A} (h : HalfCircular next prev null head (a :: l)) : head = a := by
  obtain ⟨last, hs, -⟩ := h
  exact hs

theorem null_of_nil {head : A} (h : HalfCircular next prev null head []) : head = null := by
  obtain ⟨last, hs, -⟩ := h
  exact hs

section Operations

variable {head m : A} {l l₁ l₂ : List A}

theorem exists_last (h : HalfCircular next prev null head l) (hl : l ≠ []) :
    ∃ l', l = l' ++ [prev head] ∧ next (prev head) = null := by
  obtain ⟨last, h⟩ := h
  have hlast : prev head = last := by
    cases l with
    | nil => exact (hl rfl).elim
    | cons a l =>
      obtain ⟨rfl, -, hprev, -⟩ := h
      exact hprev
  rcases List.eq_nil_or_concat l with rfl | ⟨l', a, rfl⟩
  · exact (hl rfl).elim
  · rw [List.concat_eq_append] at h ⊢
    obtain ⟨rfl, hnext⟩ := h.last_eq
    rw [hlast]
    exact ⟨l', rfl, hnext⟩

theorem around (h : HalfCircular next prev null head (l₁ ++ m :: l₂)) (h₁ : l₁ ≠ []) :
    ∃ l', l₁ = l' ++ [prev m] ∧ (l₂ = [] ∧ next m = null ∨ ∃ l'', l₂ = next m :: l'' ∧ next m ≠ null) := by
  obtain ⟨last, h⟩ := h
  obtain ⟨p, s, hs₁, -, -, hprev, hs₂⟩ := LinkedSegment.append.1 h
  rcases List.eq_nil_or_concat l₁ with rfl | ⟨l', a, rfl⟩
  · exact (h₁ rfl).elim
  · rw [List.concat_eq_append] at hs₁ ⊢
    obtain ⟨rfl, -⟩ := hs₁.last_eq
    refine ⟨l', by rw [hprev], ?_⟩
    cases l₂ with
    | nil => exact Or.inl ⟨rfl, hs₂.1⟩
    | cons b l'' =>
      obtain ⟨hb, hnull, -⟩ := hs₂
      exact Or.inr ⟨l'', by rw [hb], by rw [hb]; exact hnull⟩

variable [DecidableEq A]

theorem push (h : HalfCircular next prev null head l) (hl : l ≠ []) (hnd : l.Nodup) (hm : m ≠ null)
    (hn : ∀ b ∈ l, next' b = if b = prev head then m else next b) (hnm : next' m = null)
    (hp : ∀ b ∈ l, prev' b = if b = head then m else prev b) (hpm : prev' m = prev head) :
    HalfCircular next' prev' null head (l ++ [m]) := by
  obtain ⟨l', hl', -⟩ := h.exists_last hl
  obtain ⟨last, h⟩ := h
  have hlast : prev head = last := by
    rw [hl'] at h
    exact h.last_eq.1
  rw [hlast] at hn hl' hpm
  -- the link of the old last node first, then the one before the head
  have h₁ : LinkedSegment next' prev null last head l last m := by
    rw [hl'] at h hn hnd ⊢
    apply h.relinkLast
    · intro b hb
      have hne : b ≠ last := by
        rintro rfl
        exact (List.nodup_append.mp hnd).2.2 b hb b (by simp) rfl
      rw [hn b (List.mem_append_left _ hb), if_neg hne]
    · rw [hn last (by simp), if_pos rfl]
    · intro b hb
      rfl
  have h₂ : LinkedSegment next' prev' null m head l last m := by
    cases l with
    | nil => exact (hl rfl).elim
    | cons a l =>
      have ha : head = a := h₁.1
      subst ha
      apply h₁.relinkHead
      · intro b hb
        rfl
      · rw [hp head List.mem_cons_self, if_pos rfl]
      · intro b hb
        have hne : b ≠ head := by
          rintro rfl
          exact (List.nodup_cons.mp hnd).1 hb
        rw [hp b (List.mem_cons_of_mem _ hb), if_neg hne]
  exact ⟨m, LinkedSegment.append.2 ⟨last, m, h₂, rfl, hm, hpm, hnm, rfl⟩⟩

theorem eraseHead (h : HalfCircular next prev null head (m :: l)) (hnd : l.Nodup) (hn : ∀ b ∈ l, next' b = next b)
    (hp : ∀ b ∈ l, prev' b = if b = next m then prev m else prev b) :
    HalfCircular next' prev' null (next m) l := by
  obtain ⟨last, -, -, hprev, h⟩ := h
  refine ⟨last, ?_⟩
  cases l with
  | nil => exact ⟨h.1, rfl⟩
  | cons a l =>
    have ha : next m = a := h.1
    rw [ha] at h hp ⊢
    apply h.relinkHead hn
    · rw [hp a List.mem_cons_self, if_pos rfl, hprev]
    · intro b hb
      have hne : b ≠ a := by
        rintro rfl
        exact (List.nodup_cons.mp hnd).1 hb
      rw [hp b (List.mem_cons_of_mem _ hb), if_neg hne]

theorem eraseMiddle (h : HalfCircular next prev null head (l₁ ++ m :: l₂)) (hnd : (l₁ ++ l₂).Nodup) (h₁ : l₁ ≠ [])
    (h₂ : l₂ ≠ []) (hn : ∀ b ∈ l₁ ++ l₂, next' b = if b = prev m then next m else next b)
    (hp : ∀ b ∈ l₁ ++ l₂, prev' b = if b = next m then prev m else prev b) :
    HalfCircular next' prev' null head (l₁ ++ l₂) := by
  obtain ⟨l', hl₁, hl₂⟩ := h.around h₁
  rcases hl₂ with ⟨rfl, -⟩ | ⟨l'', hl₂, -⟩
  · exact (h₂ rfl).elim
  obtain ⟨last, h⟩ := h
  obtain ⟨p, s, hs₁, -, -, hprev, hs₂⟩ := LinkedSegment.append.1 h
  obtain ⟨-, hnd₂, hdisj⟩ := List.nodup_append.mp hnd
  have hmem₁ : prev m ∈ l₁ := by
    rw [hl₁]
    simp
  have hmem₂ : next m ∈ l₂ := by
    rw [hl₂]
    simp
  have hnd₁ : l₁.Nodup := (List.nodup_append.mp hnd).1
  refine ⟨last, LinkedSegment.append.2 ⟨p, next m, ?_, ?_⟩⟩
  · rw [hl₁] at hs₁ ⊢
    apply hs₁.relinkLast
    · intro b hb
      have hb₁ : b ∈ l₁ := by
        rw [hl₁]
        exact List.mem_append_left _ hb
      have hne : b ≠ prev m := by
        rintro rfl
        rw [hl₁] at hnd₁
        exact (List.nodup_append.mp hnd₁).2.2 _ hb _ (by simp) rfl
      rw [hn b (List.mem_append_left _ hb₁), if_neg hne]
    · rw [hn _ (List.mem_append_left _ hmem₁), if_pos rfl]
    · intro b hb
      rw [← hl₁] at hb
      have hne : b ≠ next m := fun heq => hdisj b hb (next m) hmem₂ heq
      rw [hp b (List.mem_append_left _ hb), if_neg hne]
  · rw [hl₂] at hs₂ hnd₂ ⊢
    apply hs₂.relinkHead
    · intro b hb
      rw [← hl₂] at hb
      have hne : b ≠ prev m := fun heq => hdisj (prev m) hmem₁ b hb heq.symm
      rw [hn b (List.mem_append_right _ hb), if_neg hne]
    · rw [hp _ (List.mem_append_right _ hmem₂), if_pos rfl, hprev]
    · intro b hb
      have hb₂ : b ∈ l₂ := by
        rw [hl₂]
        exact List.mem_cons_of_mem _ hb
      have hne : b ≠ next m := by
        rintro rfl
        exact (List.nodup_cons.mp hnd₂).1 hb
      rw [hp b (List.mem_append_right _ hb₂), if_neg hne]

theorem eraseLast (h : HalfCircular next prev null head (l ++ [m])) (hnd : l.Nodup) (hl : l ≠ [])
    (hn : ∀ b ∈ l, next' b = if b = prev m then null else next b)
    (hp : ∀ b ∈ l, prev' b = if b = head then prev m else prev b) :
    HalfCircular next' prev' null head l := by
  obtain ⟨l', hl', -⟩ := h.around hl
  obtain ⟨last, h⟩ := h
  obtain ⟨p, s, hs, -, -, hprev, -, -⟩ := LinkedSegment.append.1 h
  have h₁ : LinkedSegment next' prev null last head l p null := by
    rw [hl'] at hs hn hnd ⊢
    apply hs.relinkLast
    · intro b hb
      have hne : b ≠ prev m := by
        rintro rfl
        exact (List.nodup_append.mp hnd).2.2 _ hb _ (by simp) rfl
      rw [hn b (List.mem_append_left _ hb), if_neg hne]
    · rw [hn _ (by simp), if_pos rfl]
    · intro b hb
      rfl
  refine ⟨p, ?_⟩
  cases l with
  | nil => exact (hl rfl).elim
  | cons a l =>
    have ha : head = a := h₁.1
    subst ha
    apply h₁.relinkHead
    · intro b hb
      rfl
    · rw [hp head List.mem_cons_self, if_pos rfl, hprev]
    · intro b hb
      have hne : b ≠ head := by
        rintro rfl
        exact (List.nodup_cons.mp hnd).1 hb
      rw [hp b (List.mem_cons_of_mem _ hb), if_neg hne]

end Operations

end HalfCircular

end SweepDSEmu
