/-
  PocketCalc.Proofs.Sequence.Cutting
  ──────────────────────────────────
  **CUTTING LISTS WHERE A TEST FAILS.**

  A search runs along a list as long as its items pass a test.  Here such a search
  is stated by concatenation: what passes stands in front, and what is left is
  empty or begins with an item that fails.

      takeWhile_append_stop   nothing is taken from behind a stop
      run_cut                 a run in front of a stop is cut off as a whole
      cut_of_dropWhile        where a search stops, the list is cut in this way
-/

namespace PocketCalc

section

variable {α : Type} {p : α → Bool} {front back l : List α} {x : α}

/-! ## §1. A list is cut. -/

/-- What stands behind a stop has no part in the search. -/
theorem takeWhile_append_stop (hback : ∀ x, back.head? = some x → p x = false) (l : List α) :
    (l ++ back).takeWhile p = l.takeWhile p := by
  induction l with
  | nil =>
    cases back with
    | nil => rfl
    | cons x back =>
      rw [List.nil_append, List.takeWhile_cons, hback x rfl]
      rfl
  | cons x l ih => rw [List.cons_append, List.takeWhile_cons, List.takeWhile_cons, ih]

/-- **A run is cut off as a whole** if a stop or nothing stands behind it. -/
theorem run_cut (hfront : ∀ x ∈ front, p x = true)
    (hback : ∀ x, back.head? = some x → p x = false) :
    (front ++ back).takeWhile p = front ∧ (front ++ back).dropWhile p = back := by
  have hstop : back.takeWhile p = [] := takeWhile_append_stop hback []
  have htake : (front ++ back).takeWhile p = front := by
    rw [List.takeWhile_append_of_pos hfront, hstop, List.append_nil]
  have hsplit := List.takeWhile_append_dropWhile (p := p) (l := front ++ back)
  rw [htake] at hsplit
  exact ⟨htake, List.append_cancel_left hsplit⟩

/-- A list without a stop is taken as a whole. -/
theorem run_whole (hl : ∀ x ∈ l, p x = true) : l.takeWhile p = l ∧ l.dropWhile p = [] := by
  have h : (l ++ []).takeWhile p = l ∧ (l ++ []).dropWhile p = [] :=
    run_cut hl fun _ hx => nomatch hx
  rwa [List.append_nil] at h

/-- A search takes what stands in front of the first item that fails the test. -/
theorem takeWhile_cut (hfront : ∀ x ∈ front, p x = true) (hx : p x = false) :
    (front ++ x :: back).takeWhile p = front :=
  (run_cut hfront (by rintro _ ⟨⟩; exact hx)).1

/-- What it leaves begins with this item. -/
theorem dropWhile_cut (hfront : ∀ x ∈ front, p x = true) (hx : p x = false) :
    (front ++ x :: back).dropWhile p = x :: back :=
  (run_cut hfront (by rintro _ ⟨⟩; exact hx)).2

/-- The place of the first item that passes a test is behind those that fail it. -/
theorem findIdx_cut (back : List α) (hfront : ∀ x ∈ front, p x = false) (hx : p x = true) :
    (front ++ x :: back).findIdx p = front.length := by
  have hlength : front.findIdx p = front.length := List.findIdx_eq_length.2 hfront
  rw [List.findIdx_append, hlength, if_neg (Nat.lt_irrefl _), List.findIdx_cons, hx, cond_true,
    Nat.zero_add]

/-! ## §2. Where a search stops. -/

/-- Whatever a search takes passes its test. -/
theorem mem_takeWhile (h : x ∈ l.takeWhile p) : p x = true :=
  List.all_eq_true.1 List.all_takeWhile x h

/-- **A search that leaves something stops in front of an item that fails.** -/
theorem cut_of_dropWhile (h : l.dropWhile p = x :: back) :
    l = l.takeWhile p ++ x :: back ∧ p x = false := by
  refine ⟨by rw [← h, List.takeWhile_append_dropWhile], ?_⟩
  have hne : l.dropWhile p ≠ [] := by
    rw [h]
    exact List.cons_ne_nil x back
  have hhead := List.head_dropWhile_not p (l := l) hne
  simpa only [h, List.head_cons] using hhead

/-- A list of which nothing is left has no stop. -/
theorem idle_of_dropWhile (h : l.dropWhile p = []) : ∀ x ∈ l, p x = true := by
  have hl := List.takeWhile_append_dropWhile (p := p) (l := l)
  rw [h, List.append_nil] at hl
  intro x hx
  rw [← hl] at hx
  exact mem_takeWhile hx

end

end PocketCalc
