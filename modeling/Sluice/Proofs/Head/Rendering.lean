/-
  File:      Sluice/Proofs/Head/Rendering.lean
  Subject:   Heads written with loose spacing.

  * `RequestText.Valid`: texts that a head can carry;
  * `IsLine`, `IsHead`: the bytes of a line, and all the ways to write a head;
  * `words_line`, `headerShown_line`: spacing does not matter;
  * **`requestShown_of_isHead`**: a head, however it is spaced, shows its texts, and what follows it is
    left.
-/
import Mathlib.Data.List.Forall2
import Sluice.Proofs.Head.Lines
import Sluice.Proofs.Head.Words
import Sluice.Proofs.Text.Utf8

namespace Sluice.Http

open Sluice.Wire

/-! ## 1. Ways to write a head -/

/-- Texts that a head can carry: three words, and at most 32 headers, the names without spaces and
    colons, the values without spaces at their ends and not beginning with a colon; no line breaks
    anywhere. -/
structure RequestText.Valid (r : RequestText) : Prop where
  words : ∀ w ∈ [r.method, r.target, r.version], w ≠ [] ∧ ' ' ∉ w ∧ '\r' ∉ w ∧ '\n' ∉ w
  names : ∀ h ∈ r.headers, h.1 ≠ [] ∧ ' ' ∉ h.1 ∧ ':' ∉ h.1 ∧ '\r' ∉ h.1 ∧ '\n' ∉ h.1
  values : ∀ h ∈ r.headers, h.2 ≠ [] ∧ '\r' ∉ h.2 ∧ '\n' ∉ h.2 ∧ h.2.head? ≠ some ' ' ∧
    h.2.head? ≠ some ':' ∧ h.2.getLast? ≠ some ' '
  count : r.headers.length ≤ 32

/-- A run of spaces. -/
def spaces (n : Nat) : Text := List.replicate n ' '

/-- The bytes of a line of at most `limit` bytes, with either line end. -/
def IsLine (limit : Nat) (t : Text) (bytes : List UInt8) : Prop :=
  (Utf8.encode t).length ≤ limit ∧
    (bytes = Utf8.encode t ++ [10] ∨ bytes = Utf8.encode t ++ [13, 10])

/-- A start line: spaces before the first word and behind the last one, and at least one between two
    words. -/
def IsStartLine (r : RequestText) (bytes : List UInt8) : Prop :=
  ∃ a b c d, IsLine 8192 (spaces a ++ r.method ++ spaces (b + 1) ++ r.target ++ spaces (c + 1) ++
    r.version ++ spaces d) bytes

/-- A header line: spaces before the name, around the colon and behind the value. -/
def IsHeaderLine (h : Text × Text) (bytes : List UInt8) : Prop :=
  ∃ a b c d, IsLine 4096 (spaces a ++ h.1 ++ spaces b ++ [':'] ++ spaces c ++ h.2 ++ spaces d) bytes

/-- **All the ways to write a head**: empty lines, a start line, header lines, and an empty line, in
    which there may be spaces. -/
def IsHead (r : RequestText) (bytes : List UInt8) : Prop :=
  ∃ (blanks : List (List UInt8)) (first : List UInt8) (lines : List (List UInt8)) (last : List UInt8),
    (∀ b ∈ blanks, b = [10] ∨ b = [13, 10]) ∧ IsStartLine r first ∧
      List.Forall₂ IsHeaderLine r.headers lines ∧ (∃ n, IsLine 4096 (spaces n) last) ∧
      bytes = blanks.flatten ++ first ++ lines.flatten ++ last

/-! ## 2. Lines -/

section Lines

variable {t : Text} {bytes : List UInt8} {limit : Nat}

/-- **A line that is written** is the line that is read. -/
theorem lineShown_of_isLine (h : IsLine limit t bytes) (hr : '\r' ∉ t) (hn : '\n' ∉ t) :
    ∃ content, bytes = content ++ [10] ∧ (10 : UInt8) ∉ content ∧ lineShown limit content = .ok t ∧
      (content = [] ∨ content = [13] → t = []) := by
  obtain ⟨hlen, hbytes⟩ := h
  have h10 : (10 : UInt8) ∉ Utf8.encode t := Utf8.not_mem_encode (by decide) hn
  have h13 : (13 : UInt8) ∉ Utf8.encode t := Utf8.not_mem_encode (by decide) hr
  have hlast : (Utf8.encode t).getLast? ≠ some 13 := fun h => h13 (List.mem_of_getLast? h)
  have hstring := Utf8.fromUTF8?_eq_some_iff.mpr (rfl : Utf8.encode t = Utf8.encode t)
  have hnil : Utf8.encode t = [] → t = [] := by
    intro h
    have := Utf8.length_le_encode t
    rw [h] at this
    exact List.length_eq_zero_iff.mp (Nat.le_zero.mp this)
  obtain ⟨s, hs, hst⟩ := Option.map_eq_some_iff.mp hstring
  rcases hbytes with rfl | rfl
  · refine ⟨Utf8.encode t, rfl, h10, ?_, ?_⟩
    · unfold lineShown
      dsimp only
      rw [if_neg hlast, if_neg (Nat.not_lt_of_le hlen), hs]
      exact congrArg Except.ok hst
    · intro h
      rcases h with h | h
      · exact hnil h
      · rw [h] at h13
        exact absurd List.mem_cons_self h13
  · refine ⟨Utf8.encode t ++ [13], by rw [List.append_assoc]; rfl, ?_, ?_, ?_⟩
    · rw [List.mem_append, not_or]
      exact ⟨h10, by decide⟩
    · unfold lineShown
      dsimp only
      rw [if_pos List.getLast?_concat, List.dropLast_concat, if_neg (Nat.not_lt_of_le hlen), hs]
      exact congrArg Except.ok hst
    · intro h
      rcases h with h | h
      · exact absurd h (by simp)
      · refine hnil ?_
        have := congrArg List.dropLast h
        rwa [List.dropLast_concat] at this

/-- The pieces of bytes that begin with a line. -/
theorem splitOn_of_isLine (h : IsLine limit t bytes) (hr : '\r' ∉ t) (hn : '\n' ∉ t)
    (rest : List UInt8) :
    ∃ content next pieces, rest.splitOn 10 = next :: pieces ∧
      (bytes ++ rest).splitOn 10 = content :: next :: pieces ∧ lineShown limit content = .ok t ∧
      (content = [] ∨ content = [13] → t = []) := by
  obtain ⟨content, rfl, hcontent, hshown, hblank⟩ := lineShown_of_isLine h hr hn
  obtain ⟨next, pieces, hrest, hp⟩ := splitOn_line rest hcontent
  rw [List.append_cons] at hp
  exact ⟨content, next, pieces, hrest, hp, hshown, hblank⟩

end Lines

/-! ## 3. Spacing -/

theorem spaces_succ (n : Nat) : spaces (n + 1) = ' ' :: spaces n := rfl

theorem words_spaces_append (n : Nat) (t : Text) : words (spaces n ++ t) = words t := by
  induction n with
  | zero => rfl
  | succ n ih =>
    rw [spaces_succ, List.cons_append, words_space]
    exact ih

/-- A word before spaces. -/
theorem words_append_spaces {w : Text} (hw : w ≠ []) (hmem : ' ' ∉ w) (n : Nat) (t : Text) :
    words (w ++ (spaces (n + 1) ++ t)) = w :: words t := by
  rw [spaces_succ, List.cons_append, words_append hw hmem, words_spaces_append]

theorem words_last {w : Text} (hw : w ≠ []) (hmem : ' ' ∉ w) (n : Nat) :
    words (w ++ spaces n) = [w] := by
  cases n with
  | zero =>
    rw [show spaces 0 = [] from rfl, List.append_nil]
    exact words_singleton hw hmem
  | succ n =>
    have h := words_append_spaces hw hmem n []
    rwa [List.append_nil, words_nil] at h

/-- **The words of a start line**, however it is spaced. -/
theorem words_line {m u v : Text} (h : ∀ w ∈ [m, u, v], w ≠ [] ∧ ' ' ∉ w) (a b c d : Nat) :
    words (spaces a ++ m ++ spaces (b + 1) ++ u ++ spaces (c + 1) ++ v ++ spaces d) = [m, u, v] := by
  obtain ⟨hm, hm'⟩ := h m List.mem_cons_self
  obtain ⟨hu, hu'⟩ := h u (List.mem_cons_of_mem m List.mem_cons_self)
  obtain ⟨hv, hv'⟩ := h v (List.mem_cons_of_mem m (List.mem_cons_of_mem u List.mem_cons_self))
  simp only [List.append_assoc]
  rw [words_spaces_append, words_append_spaces hm hm', words_append_spaces hu hu',
    words_last hv hv']

/-- Dropping a class of characters stops behind them. -/
theorem dropWhile_append_of_all {p : Char → Bool} {s t : Text} (hs : ∀ c ∈ s, p c = true)
    (ht : ∀ c ∈ t.head?, p c = false) : (s ++ t).dropWhile p = t := by
  rw [List.dropWhile_append_of_pos hs]
  cases t with
  | nil => rfl
  | cons c t => rw [List.dropWhile_cons_of_neg (by simp [ht c rfl])]

/-- Taking a class of characters stops behind them. -/
theorem takeWhile_append_of_all {p : Char → Bool} {s t : Text} (hs : ∀ c ∈ s, p c = true)
    (ht : ∀ c ∈ t.head?, p c = false) : (s ++ t).takeWhile p = s := by
  rw [List.takeWhile_append_of_pos hs]
  cases t with
  | nil => rw [List.takeWhile_nil, List.append_nil]
  | cons c t => rw [List.takeWhile_cons_of_neg (by simp [ht c rfl]), List.append_nil]

theorem mem_spaces {n : Nat} {c : Char} (h : c ∈ spaces n) : c = ' ' := List.eq_of_mem_replicate h

section HeaderLine

variable {name value : Text} {b c : Nat}

/-- A colon among spaces. -/
def colonBetween (b c : Nat) : Text := spaces b ++ [':'] ++ spaces c

theorem isGap_of_mem_colonBetween {x : Char} (hx : x ∈ colonBetween b c) : isGap x = true := by
  simp only [colonBetween, List.mem_append, List.mem_singleton] at hx
  rcases hx with (hx | rfl) | hx
  · rw [mem_spaces hx]
    rfl
  · rfl
  · rw [mem_spaces hx]
    rfl

theorem count_colonBetween : (colonBetween b c).count ':' = 1 := by
  have hzero : ∀ n, (spaces n).count ':' = 0 := by
    intro n
    exact List.count_eq_zero_of_not_mem fun h => absurd (mem_spaces h) (by decide)
  rw [colonBetween, List.count_append, List.count_append, hzero, hzero]
  rfl

/-- The name ends where the colon, or the first space before it, begins. -/
theorem nameOf_append (hspace : ' ' ∉ name) (hcolon : ':' ∉ name) (rest : Text) :
    nameOf (name ++ (colonBetween b c ++ rest)) = name := by
  refine takeWhile_append_of_all ?_ ?_
  · intro x hx
    have h₁ : x ≠ ' ' := fun h => hspace (h ▸ hx)
    have h₂ : x ≠ ':' := fun h => hcolon (h ▸ hx)
    simp [h₁, h₂]
  · intro x hx
    have hne : colonBetween b c ≠ [] := by simp [colonBetween]
    rw [List.head?_append_of_ne_nil _ hne] at hx
    have := isGap_of_mem_colonBetween (List.mem_of_head? hx)
    simpa [isGap, imp_iff_not_or, or_comm] using this

/-- The value begins behind the spaces and the colon. -/
theorem isGap_of_head {d : Nat} (hv : value ≠ []) (hspace : value.head? ≠ some ' ')
    (hcolon : value.head? ≠ some ':') : ∀ x ∈ (value ++ spaces d).head?, isGap x = false := by
  intro x hx
  rw [List.head?_append_of_ne_nil _ hv] at hx
  have h₁ : x ≠ ' ' := fun h => hspace (h ▸ hx)
  have h₂ : x ≠ ':' := fun h => hcolon (h ▸ hx)
  simp [isGap, h₁, h₂]

/-- The value ends before the last spaces. -/
theorem rdropWhile_spaces (hlast : value.getLast? ≠ some ' ') (d : Nat) :
    (value ++ spaces d).rdropWhile (· == ' ') = value := by
  have hrev : (spaces d).reverse = spaces d := List.reverse_replicate
  rw [List.rdropWhile, List.reverse_append, hrev, dropWhile_append_of_all, List.reverse_reverse]
  · intro x hx
    rw [mem_spaces hx]
    rfl
  · intro x hx
    rw [List.head?_reverse] at hx
    have h₁ : x ≠ ' ' := fun h => hlast (h ▸ hx)
    simp [h₁]

/-- **A header line**, however it is spaced, shows its name and its value. -/
theorem headerShown_line (hname : name ≠ [] ∧ ' ' ∉ name ∧ ':' ∉ name)
    (hvalue : value ≠ [] ∧ value.head? ≠ some ' ' ∧ value.head? ≠ some ':' ∧
      value.getLast? ≠ some ' ') (a b c d : Nat) :
    headerShown (spaces a ++ name ++ spaces b ++ [':'] ++ spaces c ++ value ++ spaces d) =
      .ok (some (name, value)) := by
  obtain ⟨hn, hnspace, hncolon⟩ := hname
  obtain ⟨hv, hvspace, hvcolon, hvlast⟩ := hvalue
  have hline : (spaces a ++ name ++ spaces b ++ [':'] ++ spaces c ++ value ++ spaces d).dropWhile
      (· == ' ') = name ++ (colonBetween b c ++ (value ++ spaces d)) := by
    simp only [colonBetween, List.append_assoc]
    refine dropWhile_append_of_all ?_ ?_
    · intro x hx
      rw [mem_spaces hx]
      rfl
    · intro x hx
      rw [List.head?_append_of_ne_nil _ hn] at hx
      have h₁ : x ≠ ' ' := fun h => hnspace (h ▸ List.mem_of_head? hx)
      simp [h₁]
  have hnameOf := nameOf_append (b := b) (c := c) hnspace hncolon (value ++ spaces d)
  have hgap : ∀ x ∈ colonBetween b c, isGap x = true := fun _ => isGap_of_mem_colonBetween
  have hhead := isGap_of_head (d := d) hv hvspace hvcolon
  have hgapOf : gapOf (name ++ (colonBetween b c ++ (value ++ spaces d))) = colonBetween b c := by
    rw [gapOf, hnameOf, List.drop_left, takeWhile_append_of_all hgap hhead]
  have hvalueOf : valueOf (name ++ (colonBetween b c ++ (value ++ spaces d))) = value := by
    rw [valueOf, restOf, hnameOf, List.drop_left, dropWhile_append_of_all hgap hhead,
      rdropWhile_spaces hvlast]
  rw [headerShown_eq, hline, hnameOf, hgapOf, hvalueOf, count_colonBetween, if_neg (by simp [hn]),
    if_neg (by simp [hn]), if_neg (by decide), if_neg hv]

end HeaderLine

/-! ## 4. Heads -/

variable {failure : Option Failure}

/-- The empty line that ends a head. -/
theorem headersShown_last (failure : Option Failure) (count : Nat) {last : List UInt8}
    (rest : List UInt8) {n : Nat} (h : IsLine 4096 (spaces n) last) :
    headersShown failure count ((last ++ rest).splitOn 10) = .ok ([], rest.splitOn 10) := by
  have hr : '\r' ∉ spaces n := fun hm => absurd (mem_spaces hm) (by decide)
  have hn : '\n' ∉ spaces n := fun hm => absurd (mem_spaces hm) (by decide)
  obtain ⟨content, next, pieces, hrest, hp, hshown, _⟩ := splitOn_of_isLine h hr hn rest
  have hempty : headerShown (spaces n) = .ok none := by
    have hdrop : (spaces n).dropWhile (· == ' ') = [] := by
      have := dropWhile_append_of_all (p := (· == ' ')) (s := spaces n) (t := [])
        (fun x hx => by rw [mem_spaces hx]; rfl) nofun
      rwa [List.append_nil] at this
    unfold headerShown
    dsimp only
    rw [hdrop, if_pos rfl]
  rw [hp, hrest, headersShown_end hshown hempty]

/-- **Header lines** and the empty line behind them show their headers. -/
theorem headersShown_lines (failure : Option Failure) (count : Nat)
    {headers : List (Text × Text)} {lines : List (List UInt8)} {last : List UInt8}
    (rest : List UInt8) {n : Nat}
    (hnames : ∀ h ∈ headers, h.1 ≠ [] ∧ ' ' ∉ h.1 ∧ ':' ∉ h.1 ∧ '\r' ∉ h.1 ∧ '\n' ∉ h.1)
    (hvalues : ∀ h ∈ headers, h.2 ≠ [] ∧ '\r' ∉ h.2 ∧ '\n' ∉ h.2 ∧ h.2.head? ≠ some ' ' ∧
      h.2.head? ≠ some ':' ∧ h.2.getLast? ≠ some ' ')
    (hcount : count + headers.length ≤ 32) (hlines : List.Forall₂ IsHeaderLine headers lines)
    (hlast : IsLine 4096 (spaces n) last) :
    headersShown failure count ((lines.flatten ++ last ++ rest).splitOn 10) =
      .ok (headers, rest.splitOn 10) := by
  induction hlines generalizing count with
  | nil => exact headersShown_last failure count rest hlast
  | @cons h line headers lines hline hlines ih =>
    obtain ⟨name, value⟩ := h
    obtain ⟨a, b, c, d, hline⟩ := hline
    obtain ⟨hn, hnspace, hncolon, hnr, hnn⟩ := hnames _ List.mem_cons_self
    obtain ⟨hv, hvr, hvn, hvspace, hvcolon, hvlast⟩ := hvalues _ List.mem_cons_self
    dsimp only at hn hnspace hncolon hnr hnn hv hvr hvn hvspace hvcolon hvlast hline
    have hbreak : ∀ x : Char, x ≠ ' ' → x ≠ ':' → x ∉ name → x ∉ value →
        x ∉ spaces a ++ name ++ spaces b ++ [':'] ++ spaces c ++ value ++ spaces d := by
      intro x hx hx' hxn hxv hmem
      simp only [List.mem_append, List.mem_singleton] at hmem
      rcases hmem with (((((h | h) | h) | h) | h) | h) | h
      · exact hx (mem_spaces h)
      · exact hxn h
      · exact hx (mem_spaces h)
      · exact hx' h
      · exact hx (mem_spaces h)
      · exact hxv h
      · exact hx (mem_spaces h)
    obtain ⟨content, next, pieces, hrest, hp, hshown, _⟩ := splitOn_of_isLine hline
      (hbreak '\r' (by decide) (by decide) hnr hvr) (hbreak '\n' (by decide) (by decide) hnn hvn)
      (lines.flatten ++ last ++ rest)
    have hall : (line :: lines).flatten ++ last ++ rest =
        line ++ (lines.flatten ++ last ++ rest) := by
      simp only [List.flatten_cons, List.append_assoc]
    have hheader := headerShown_line ⟨hn, hnspace, hncolon⟩ ⟨hv, hvspace, hvcolon, hvlast⟩ a b c d
    rw [List.length_cons] at hcount
    have hlater := ih (count + 1) (fun h hh => hnames h (List.mem_cons_of_mem _ hh))
      (fun h hh => hvalues h (List.mem_cons_of_mem _ hh)) (by omega)
    rw [hrest] at hlater
    rw [hall, hp, headersShown_header hshown hheader, if_pos (by omega), hlater]
    rfl

/-- **A head**, in whatever way it is written, shows its texts, and what follows it is left. -/
theorem requestShown_of_isHead {r : RequestText} {bytes : List UInt8} (hr : r.Valid)
    (h : IsHead r bytes) (rest : List UInt8) :
    requestShown failure ((bytes ++ rest).splitOn 10) = .ok (some (r, rest.splitOn 10)) := by
  obtain ⟨blanks, first, lines, last, hblanks, hfirst, hlines, ⟨n, hlast⟩, rfl⟩ := h
  induction blanks with
  | nil =>
    obtain ⟨a, b, c, d, hline⟩ := hfirst
    have hwords := words_line (fun w hw => ⟨(hr.words w hw).1, (hr.words w hw).2.1⟩) a b c d
    have hbreak : ∀ x : Char, x ≠ ' ' → (∀ w ∈ [r.method, r.target, r.version], x ∉ w) →
        x ∉ spaces a ++ r.method ++ spaces (b + 1) ++ r.target ++ spaces (c + 1) ++ r.version ++
          spaces d := by
      intro x hx hw hmem
      simp only [List.mem_append] at hmem
      simp only [List.forall_mem_cons] at hw
      rcases hmem with (((((h | h) | h) | h) | h) | h) | h
      · exact hx (mem_spaces h)
      · exact hw.1 h
      · exact hx (mem_spaces h)
      · exact hw.2.1 h
      · exact hx (mem_spaces h)
      · exact hw.2.2.1 h
      · exact hx (mem_spaces h)
    obtain ⟨content, next, pieces, hrest, hp, hshown, hempty⟩ := splitOn_of_isLine hline
      (hbreak '\r' (by decide) fun w hw => (hr.words w hw).2.2.1)
      (hbreak '\n' (by decide) fun w hw => (hr.words w hw).2.2.2) (lines.flatten ++ last ++ rest)
    have hne : ¬ (content = [] ∨ content = [13]) := by
      intro hc
      rw [hempty hc, words_nil] at hwords
      cases hwords
    have hall : ([] : List (List UInt8)).flatten ++ first ++ lines.flatten ++ last ++ rest =
        first ++ (lines.flatten ++ last ++ rest) := by
      simp only [List.flatten_nil, List.nil_append, List.append_assoc]
    have hheaders := headersShown_lines failure 0 rest hr.names hr.values
      (by rw [Nat.zero_add]; exact hr.count) hlines hlast
    rw [hrest] at hheaders
    rw [hall, hp, requestShown_words hne hshown hwords, hheaders]
    rfl
  | cons blank blanks ih =>
    obtain ⟨content, rfl, hcontent, hblank⟩ : ∃ content, blank = content ++ [10] ∧
        (10 : UInt8) ∉ content ∧ (content = [] ∨ content = [13]) := by
      rcases hblanks blank List.mem_cons_self with rfl | rfl
      · exact ⟨[], rfl, List.not_mem_nil, .inl rfl⟩
      · exact ⟨[13], rfl, by decide, .inr rfl⟩
    have hlater := ih fun b hb => hblanks b (List.mem_cons_of_mem _ hb)
    have hall : ((content ++ [10]) :: blanks).flatten ++ first ++ lines.flatten ++ last ++ rest =
        content ++ 10 :: (blanks.flatten ++ first ++ lines.flatten ++ last ++ rest) := by
      simp only [List.flatten_cons, List.append_assoc, List.cons_append, List.nil_append]
    obtain ⟨next, pieces, hrest, hp⟩ :=
      splitOn_line (blanks.flatten ++ first ++ lines.flatten ++ last ++ rest) hcontent
    rw [hall, hp, requestShown_blank hblank, ← hrest]
    exact hlater

end Sluice.Http
