/-
  File:      Sluice/Text/Fold.lean
  Subject:   Texts, and comparing them without regard to the case of ASCII letters.

  * `Text`: a list of characters, the one representation of text in this library;
  * `eqFold`, `startsWithFold`, `startsWith`: equality and beginnings;
  * `hashLower`: the 32-bit hash header names are indexed by; `hashLower_eq_of_eqFold` says that
    texts equal up to case have one hash, so a lookup may compare hashes first.
-/
namespace Sluice

/-- A text is a list of characters. -/
abbrev Text := List Char

namespace Text

/-! ## 1. Comparison -/

/-- Equality up to the case of ASCII letters. -/
def eqFold : Text → Text → Bool
  | [], [] => true
  | c :: cs, d :: ds => c.toLower == d.toLower && eqFold cs ds
  | _, _ => false

/-- The text begins with `start`. -/
def startsWith : (text start : Text) → Bool
  | _, [] => true
  | [], _ :: _ => false
  | c :: cs, d :: ds => c == d && startsWith cs ds

/-- The text begins with `start`, up to the case of ASCII letters. -/
def startsWithFold : (text start : Text) → Bool
  | _, [] => true
  | [], _ :: _ => false
  | c :: cs, d :: ds => c.toLower == d.toLower && startsWithFold cs ds

/-- Two texts are equal up to case exactly when they are equal in lower case. -/
theorem eqFold_iff (s t : Text) : eqFold s t = true ↔ s.map Char.toLower = t.map Char.toLower := by
  induction s generalizing t with
  | nil => cases t <;> simp [eqFold]
  | cons c cs ih => cases t <;> simp [eqFold, ih]

theorem startsWith_iff (s t : Text) : startsWith s t = true ↔ ∃ r, s = t ++ r := by
  induction t generalizing s with
  | nil => simp [startsWith]
  | cons d ds ih => cases s <;> simp [startsWith, ih]

/-! ## 2. The hash -/

/-- One step of the hash: 31 times what there was, plus the character in lower case. -/
def hashStep (h : UInt32) (c : Char) : UInt32 := h * 31 + c.toLower.val

/-- The hash of a text, with ASCII letters lowered, modulo 2 to the 32nd. -/
def hashLower (t : Text) : UInt32 := t.foldl hashStep 0

theorem foldl_hashStep_map (t : Text) (h : UInt32) :
    t.foldl hashStep h = (t.map Char.toLower).foldl (fun h c => h * 31 + c.val) h := by
  induction t generalizing h with
  | nil => rfl
  | cons c cs ih => simp [ih, hashStep]

/-- **Texts equal up to case have the same hash.** -/
theorem hashLower_eq_of_eqFold {s t : Text} (h : eqFold s t = true) : hashLower s = hashLower t := by
  rw [hashLower, hashLower, foldl_hashStep_map, foldl_hashStep_map, (eqFold_iff s t).mp h]

end Text

end Sluice
