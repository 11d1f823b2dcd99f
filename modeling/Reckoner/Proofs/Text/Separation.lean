/-!
# Separated pieces

A text that is put together from pieces determines them, if what separates or ends the pieces does
not occur in them: two pieces with something between them (`append_cons_inj`), lines
(`flatMap_line_inj`), and lists with commas (`intercalate_inj`).
-/

namespace Reckoner.Text

variable {α : Type} {c : α}

theorem append_cons_inj {a b s t : List α} (ha : c ∉ a) (hb : c ∉ b)
    (h : a ++ c :: s = b ++ c :: t) : a = b ∧ s = t := by
  induction a generalizing b with
  | nil =>
    cases b with
    | nil => exact ⟨rfl, (List.cons.inj h).2⟩
    | cons y b => exact absurd ((List.cons.inj h).1 ▸ List.mem_cons_self) hb
  | cons x a ih =>
    cases b with
    | nil => exact absurd ((List.cons.inj h).1 ▸ List.mem_cons_self) ha
    | cons y b =>
      obtain ⟨rfl, hrest⟩ := List.cons.inj h
      obtain ⟨rfl, rfl⟩ := ih (fun hc => ha (List.mem_cons_of_mem _ hc))
        (fun hc => hb (List.mem_cons_of_mem _ hc)) hrest
      exact ⟨rfl, rfl⟩

theorem flatMap_line_inj {xs ys : List (List α)} (hx : ∀ x ∈ xs, c ∉ x) (hy : ∀ y ∈ ys, c ∉ y)
    (h : (xs.flatMap fun x => x ++ [c]) = ys.flatMap fun y => y ++ [c]) : xs = ys := by
  induction xs generalizing ys with
  | nil =>
    cases ys with
    | nil => rfl
    | cons y ys => simp at h
  | cons x xs ih =>
    cases ys with
    | nil => simp at h
    | cons y ys =>
      obtain ⟨hx, hxs⟩ := List.forall_mem_cons.1 hx
      obtain ⟨hy, hys⟩ := List.forall_mem_cons.1 hy
      simp only [List.flatMap_cons, List.append_assoc, List.singleton_append] at h
      obtain ⟨rfl, hrest⟩ := append_cons_inj hx hy h
      rw [ih hxs hys hrest]

theorem map_inj_of_mem {β : Type} {f : α → β} {xs ys : List α}
    (hf : ∀ x ∈ xs, ∀ y ∈ ys, f x = f y → x = y) (h : xs.map f = ys.map f) : xs = ys := by
  induction xs generalizing ys with
  | nil => exact (List.map_eq_nil_iff.1 h.symm).symm
  | cons x xs ih =>
    cases ys with
    | nil => contradiction
    | cons y ys =>
      obtain ⟨hxy, hrest⟩ := List.cons.inj h
      rw [hf x List.mem_cons_self y List.mem_cons_self hxy,
        ih (fun a ha b hb => hf a (List.mem_cons_of_mem _ ha) b (List.mem_cons_of_mem _ hb)) hrest]

theorem not_mem_intercalate {a : α} {sep : List α} {xs : List (List α)} (hs : a ∉ sep)
    (hx : ∀ x ∈ xs, a ∉ x) : a ∉ sep.intercalate xs := by
  induction xs with
  | nil => simp
  | cons x xs ih =>
    obtain ⟨hxa, hxs⟩ := List.forall_mem_cons.1 hx
    cases xs with
    | nil => simpa using hxa
    | cons x' xs =>
      rw [List.intercalate_cons_cons, List.mem_append, List.mem_append, not_or, not_or]
      exact ⟨⟨hxa, hs⟩, ih hxs⟩

theorem intercalate_ne_nil {sep x : List α} {xs : List (List α)} (hx : x ≠ []) :
    sep.intercalate (x :: xs) ≠ [] := by
  cases xs with
  | nil => simpa using hx
  | cons x' xs => simp [hx]

theorem intercalate_inj {ds : List α} {xs ys : List (List α)} (hx : ∀ x ∈ xs, c ∉ x ∧ x ≠ [])
    (hy : ∀ y ∈ ys, c ∉ y ∧ y ≠ []) (h : (c :: ds).intercalate xs = (c :: ds).intercalate ys) :
    xs = ys := by
  induction xs generalizing ys with
  | nil =>
    cases ys with
    | nil => rfl
    | cons y ys => exact absurd h.symm (intercalate_ne_nil (hy y List.mem_cons_self).2)
  | cons x xs ih =>
    obtain ⟨hxc, hxs⟩ := List.forall_mem_cons.1 hx
    cases ys with
    | nil => exact absurd h (intercalate_ne_nil hxc.2)
    | cons y ys =>
      obtain ⟨hyc, hys⟩ := List.forall_mem_cons.1 hy
      match xs, ys with
      | [], [] => simpa using h
      | [], y' :: ys =>
        simp only [List.intercalate_singleton, List.intercalate_cons_cons, List.append_assoc] at h
        exact absurd (h ▸ by simp) hxc.1
      | x' :: xs, [] =>
        simp only [List.intercalate_singleton, List.intercalate_cons_cons, List.append_assoc] at h
        exact absurd (h ▸ by simp) hyc.1
      | x' :: xs, y' :: ys =>
        simp only [List.intercalate_cons_cons, List.append_assoc, List.cons_append] at h
        obtain ⟨rfl, hrest⟩ := append_cons_inj hxc.1 hyc.1 h
        rw [ih hxs hys (List.append_cancel_left hrest)]

end Reckoner.Text
