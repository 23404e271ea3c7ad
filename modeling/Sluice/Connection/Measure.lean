/-
  File:      Sluice/Connection/Measure.lean
  Subject:   Numbers that bound how long a run can take.

  * `total`: what the elements of a list cost together; `total_split`, `total_set`, `total_map_le`
    and `total_map_lt` say how it changes with one element and with all of them;
  * `largest`: the largest value a function has on short byte strings.
-/
namespace Sluice.Connection

/-! ## 1. Totals -/

section Total

variable {α : Type} {f : α → Nat} {g : α → α} {l : List α} {i : Nat} {x : α}

/-- What the elements of a list cost together. -/
def total (f : α → Nat) : List α → Nat
  | [] => 0
  | x :: l => f x + total f l

@[simp] theorem total_nil : total f [] = 0 := rfl

@[simp] theorem total_cons (x : α) : total f (x :: l) = f x + total f l := rfl

theorem total_replicate (n : Nat) : total f (List.replicate n x) = n * f x := by
  induction n with
  | zero => exact (Nat.zero_mul _).symm
  | succ n ih => rw [List.replicate_succ, total_cons, ih, Nat.succ_mul, Nat.add_comm]

/-- What the others cost does not change when another element is put into a place. -/
theorem total_split (h : l[i]? = some x) :
    ∃ others, total f l = others + f x ∧ ∀ y, total f (l.set i y) = others + f y := by
  induction l generalizing i with
  | nil => cases h
  | cons z l ih =>
    cases i with
    | zero =>
      obtain rfl : z = x := Option.some.inj h
      exact ⟨total f l, Nat.add_comm .., fun y => Nat.add_comm ..⟩
    | succ i =>
      obtain ⟨others, hl, hset⟩ := ih h
      refine ⟨f z + others, ?_, fun y => ?_⟩
      · rw [total_cons, hl, Nat.add_assoc]
      · rw [List.set_cons_succ, total_cons, hset, Nat.add_assoc]

/-- Putting another element into a place changes the total by the difference. -/
theorem total_set (f : α → Nat) (l : List α) (i : Nat) (x y : α) (h : l[i]? = some x) :
    total f (l.set i y) + f x = total f l + f y := by
  obtain ⟨others, hl, hset⟩ := total_split (f := f) h
  rw [hl, hset]
  omega

theorem total_map_le (l : List α) (h : ∀ x, f (g x) ≤ f x) : total f (l.map g) ≤ total f l := by
  induction l with
  | nil => exact Nat.le_refl _
  | cons x l ih =>
    have := h x
    simp only [List.map_cons, total_cons]
    omega

theorem total_map_lt (h : ∀ x, f (g x) ≤ f x) {x : α} (hx : x ∈ l) (hlt : f (g x) < f x) :
    total f (l.map g) < total f l := by
  induction l with
  | nil => cases hx
  | cons z l ih =>
    simp only [List.map_cons, total_cons]
    rcases List.mem_cons.mp hx with rfl | hx
    · have := total_map_le l h
      omega
    · have := h z
      have := ih hx
      omega

end Total

/-! ## 2. Largest values -/

/-- The largest value of `f` on byte strings of at most `n` bytes. -/
def largest : Nat → (List UInt8 → Nat) → Nat
  | 0, f => f []
  | n + 1, f =>
    ((List.range 256).map fun b => largest n fun l => f (UInt8.ofNat b :: l)).foldr max (f [])

theorem le_foldr_max (l : List Nat) (start : Nat) :
    start ≤ l.foldr max start ∧ ∀ a ∈ l, a ≤ l.foldr max start := by
  induction l with
  | nil => simp
  | cons b l ih =>
    simp only [List.foldr_cons, List.mem_cons]
    refine ⟨Nat.le_trans ih.1 (Nat.le_max_right ..), ?_⟩
    intro a h
    rcases h with rfl | ha
    · exact Nat.le_max_left ..
    · exact Nat.le_trans (ih.2 a ha) (Nat.le_max_right ..)

theorem foldr_max_le {l : List Nat} {start k : Nat} (hs : start ≤ k) (h : ∀ a ∈ l, a ≤ k) :
    l.foldr max start ≤ k := by
  induction l with
  | nil => exact hs
  | cons b l ih =>
    exact Nat.max_le.mpr
      ⟨h b List.mem_cons_self, ih fun a ha => h a (List.mem_cons_of_mem _ ha)⟩

theorem le_largest {n : Nat} (f : List UInt8 → Nat) {l : List UInt8} (h : l.length ≤ n) :
    f l ≤ largest n f := by
  induction n generalizing f l with
  | zero =>
    obtain rfl := List.length_eq_zero_iff.mp (Nat.le_zero.mp h)
    exact Nat.le_refl _
  | succ n ih =>
    cases l with
    | nil => exact (le_foldr_max _ _).1
    | cons b l =>
      have hb : f (b :: l) ≤ largest n fun l => f (UInt8.ofNat b.toNat :: l) := by
        have := ih (fun l => f (b :: l)) (Nat.le_of_succ_le_succ h)
        rwa [UInt8.ofNat_toNat]
      refine Nat.le_trans hb ((le_foldr_max _ _).2 _ ?_)
      exact List.mem_map.mpr ⟨b.toNat, List.mem_range.mpr b.toNat_lt, rfl⟩

theorem largest_le {n k : Nat} {f : List UInt8 → Nat} (h : ∀ l, l.length ≤ n → f l ≤ k) :
    largest n f ≤ k := by
  induction n generalizing f with
  | zero => exact h [] (Nat.le_refl _)
  | succ n ih =>
    refine foldr_max_le (h [] (Nat.zero_le _)) fun a ha => ?_
    obtain ⟨b, _, rfl⟩ := List.mem_map.mp ha
    exact ih fun l hl => h _ (Nat.succ_le_succ hl)

end Sluice.Connection
