/-
  File:      Sluice/Proofs/Text/Trie.lean
  Subject:   A trie answers what its word list says.

  * `get?`: the value of one word in a trie;
  * `get?_insertCons`: inserting a word changes the value of this word alone;
  * `searchFrom_eq`: searching a text looks up its characters before the first stop;
  * **`search_ofWords`**: the trie of a list finds the last pair of the list with these characters.
-/
import Mathlib.Data.List.Induction
import Sluice.Text.WordTrie

namespace Sluice.WordTrie

variable {α : Type}

/-! ## 1. The value of a word -/

/-- The value of a word in a trie. -/
def get? : WordTrie α → Text → Option α
  | _, [] => none
  | t, c :: cs =>
    match t.find? c with
    | none => none
    | some (exact, below) => if cs = [] then exact else get? below cs

theorem get?_leaf (w : Text) : (leaf : WordTrie α).get? w = none := by
  cases w <;> rfl

/-- In a branch, its own character leads down and every other one to the side. -/
theorem get?_branch (d : Char) (exact : Option α) (below beside : WordTrie α) (c : Char)
    (cs : Text) : (branch d exact below beside).get? (c :: cs) =
      if c = d then (if cs = [] then exact else below.get? cs) else beside.get? (c :: cs) := by
  simp only [get?, find?]
  by_cases h : c = d
  · rw [if_pos h, if_pos h]
  · rw [if_neg h, if_neg h]

/-- A level with one word has the value of this word only. -/
theorem get?_single (value : α) (c : Char) (cs w : Text) :
    (single value c cs).get? w = if w = c :: cs then some value else none := by
  induction cs generalizing c w with
  | nil =>
    cases w with
    | nil => rfl
    | cons e es =>
      rw [single, get?_branch, get?_leaf, get?_leaf]
      by_cases he : e = c <;> by_cases hes : es = [] <;> simp [he, hes]
  | cons d ds ih =>
    cases w with
    | nil => rfl
    | cons e es =>
      rw [single, get?_branch, get?_leaf, ih]
      by_cases he : e = c <;> by_cases hes : es = [] <;> simp [he, hes]

/-- **Inserting a word** gives this word its value and leaves those of the others. -/
theorem get?_insertCons (value : α) (t : WordTrie α) (c : Char) (cs w : Text) :
    (insertCons value t c cs).get? w = if w = c :: cs then some value else t.get? w := by
  induction t generalizing c cs w with
  | leaf => rw [insertCons, get?_single, get?_leaf]
  | branch d exact below beside ihBelow ihBeside =>
    cases w with
    | nil => rfl
    | cons e es =>
      rw [insertCons.eq_def]
      dsimp only
      by_cases hc : c = d
      · rw [if_pos hc]
        cases cs with
        | nil =>
          dsimp only
          rw [get?_branch, get?_branch]
          by_cases he : e = d <;> by_cases hes : es = [] <;> simp [he, hes, hc]
        | cons x xs =>
          dsimp only
          rw [get?_branch, get?_branch, ihBelow]
          by_cases he : e = d <;> by_cases hes : es = [] <;> simp [he, hes, hc]
      · rw [if_neg hc, get?_branch, get?_branch, ihBeside]
        by_cases he : e = d
        · have hne : ¬ e = c := fun h => hc (h.symm.trans he)
          simp [he, Ne.symm hc]
        · simp [he]

theorem get?_insert (t : WordTrie α) (word : Text) (value : α) (w : Text) :
    (t.insert word value).get? w = if word ≠ [] ∧ w = word then some value else t.get? w := by
  cases word with
  | nil => rfl
  | cons c cs =>
    rw [insert, get?_insertCons]
    by_cases h : w = c :: cs <;> simp [h]

/-! ## 2. Word lists -/

/-- A pair behind a word list takes the place of the earlier ones of its word. -/
theorem lookup_concat (words : List (Text × α)) (p : Text × α) (w : Text) :
    lookup (words ++ [p]) w = if p.1 = w then some p.2 else lookup words w := by
  simp only [lookup, List.reverse_append, List.reverse_cons, List.reverse_nil, List.nil_append,
    List.singleton_append, List.find?_cons]
  by_cases h : p.1 = w <;> simp [h]

/-- The values in the trie of a word list are those that the list says. -/
theorem get?_ofWords (words : List (Text × α)) (w : Text) :
    (ofWords words).get? w = if w = [] then none else lookup words w := by
  induction words using List.reverseRecOn with
  | nil =>
    rw [ofWords, List.foldl_nil, get?_leaf]
    by_cases h : w = [] <;> simp [h, lookup]
  | append_singleton words p ih =>
    rw [ofWords] at ih
    rw [ofWords, List.foldl_append, List.foldl_cons, List.foldl_nil, get?_insert, ih, lookup_concat]
    by_cases hw : w = []
    · by_cases hp : p.1 = [] <;> simp [hw, hp]
    · by_cases hp : p.1 = w
      · simp [hp, hw]
      · simp [hp, hw, Ne.symm hp]

/-! ## 3. Searching -/

/-- **A search** looks up the characters before the first stop. -/
theorem searchFrom_eq (stop : Char → Bool) (t : WordTrie α) (here : Option α) (n : Nat)
    (text : Text) : searchFrom stop t here n text =
      if text.takeWhile (!stop ·) = [] then here.map (·, n)
      else (t.get? (text.takeWhile (!stop ·))).map (·, n + (text.takeWhile (!stop ·)).length) := by
  induction text generalizing t here n with
  | nil => rfl
  | cons c cs ih =>
    rw [searchFrom]
    by_cases hstop : stop c
    · simp [hstop]
    · simp only [hstop, Bool.false_eq_true, if_false, Bool.not_false, List.takeWhile_cons_of_pos,
        reduceCtorEq, get?]
      cases t.find? c with
      | none => rfl
      | some r =>
        obtain ⟨exact, below⟩ := r
        dsimp only
        rw [ih]
        by_cases hcs : cs.takeWhile (!stop ·) = []
        · simp [hcs]
        · simp [hcs, Nat.add_assoc, Nat.add_comm 1]

/-- **The trie of a word list** finds the value that the list says of the characters before the first
    stop. -/
theorem search_ofWords (words : List (Text × α)) (stop : Char → Bool) (text : Text) :
    (ofWords words).search stop text =
      if text.takeWhile (!stop ·) = [] then none
      else (lookup words (text.takeWhile (!stop ·))).map (·, (text.takeWhile (!stop ·)).length) := by
  rw [search, searchFrom_eq, get?_ofWords, Nat.zero_add]
  by_cases h : text.takeWhile (!stop ·) = [] <;> simp [h]

end Sluice.WordTrie
