/-
  File:      Sluice/Proofs/Head/Words.lean
  Subject:   A cursor along a line finds the words of the line.

  * `Span.text`, `TextRef.text`: the part of a text that a span or a reference means;
  * `Cursor.At`: a cursor stands inside a text;
  * `words_eq`: the words of a text, first one first;
  * `readMethod_eq`, `readTarget_eq`, `readVersion_eq`: each reads the next word;
  * **`ofText_eq`**: a line is a request line exactly when it has three words;
  * `nameOf`, `gapOf`, `valueOf`: the parts of a header line; `headerOfLine_eq_header` says that it is
    read by them;
  * **`headerOfLine_eq`**: a header line is read as the name and the value that it shows.
-/
import Sluice.Proofs.Head.Grammar
import Sluice.Proofs.Text.Trie

namespace Sluice.Http

/-! ## 1. Parts of a text -/

/-- The part of a text that a span means. -/
def Span.text (s : Span) (t : Text) : Text := (t.drop s.start).take (s.stop - s.start)

/-- The span lies inside the text. -/
def Span.Within (s : Span) (t : Text) : Prop := s.stop ≤ t.length

/-- A part of a text stays where it is when the text grows. -/
theorem Span.text_append {s : Span} {t : Text} (h : s.Within t) (u : Text) :
    s.text (t ++ u) = s.text t := by
  unfold Within at h
  unfold text
  rcases Nat.lt_or_ge s.stop s.start with hs | hs
  · rw [Nat.sub_eq_zero_of_le (Nat.le_of_lt hs), List.take_zero, List.take_zero]
  · rw [List.drop_append_of_le_length (by omega), List.take_append_of_le_length]
    rw [List.length_drop]
    omega

theorem Span.Within.append {s : Span} {t : Text} (h : s.Within t) (u : Text) :
    s.Within (t ++ u) := by
  unfold Within at h ⊢
  rw [List.length_append]
  omega

/-- The text that a reference means. -/
def TextRef.text (t : Text) : TextRef → Text
  | .literal word => word
  | .span s => s.text t

def TextRef.Within (t : Text) : TextRef → Prop
  | .literal _ => True
  | .span s => s.Within t

theorem TextRef.text_append {r : TextRef} {t : Text} (h : r.Within t) (u : Text) :
    r.text (t ++ u) = r.text t := by
  cases r with
  | literal word => rfl
  | span s => exact Span.text_append h u

theorem TextRef.Within.append {r : TextRef} {t : Text} (h : r.Within t) (u : Text) :
    r.Within (t ++ u) := by
  cases r with
  | literal word => exact trivial
  | span s => exact Span.Within.append h u

/-! ## 2. Cursors -/

namespace Cursor

/-- The cursor stands inside a text, and its rest is what follows there. -/
def At (t : Text) (c : Cursor) : Prop := c.pos ≤ t.length ∧ c.rest = t.drop c.pos

variable {t : Text} {c : Cursor}

theorem At.length (h : c.At t) : c.pos + c.rest.length = t.length := by
  rw [h.2, List.length_drop]
  have := h.1
  omega

/-- On by some characters. -/
theorem At.forward (h : c.At t) {n : Nat} (hn : n ≤ c.rest.length) :
    At t ⟨c.pos + n, c.rest.drop n⟩ := by
  have := h.length
  refine ⟨show c.pos + n ≤ t.length by omega, ?_⟩
  show c.rest.drop n = t.drop (c.pos + n)
  rw [h.2, List.drop_drop]

/-- The characters from the cursor on. -/
theorem At.text (h : c.At t) (n : Nat) : Span.text ⟨c.pos, c.pos + n⟩ t = c.rest.take n := by
  rw [Span.text, h.2, Nat.add_sub_cancel_left]

theorem length_takeWhile_le {α : Type} (p : α → Bool) (l : List α) :
    (l.takeWhile p).length ≤ l.length :=
  (List.takeWhile_prefix p).length_le

theorem drop_length_takeWhile {α : Type} (p : α → Bool) (l : List α) :
    l.drop (l.takeWhile p).length = l.dropWhile p := by
  induction l with
  | nil => rfl
  | cons a l ih =>
    rw [List.takeWhile_cons, List.dropWhile_cons]
    split
    · exact ih
    · rfl

theorem take_length_takeWhile {α : Type} (p : α → Bool) (l : List α) :
    l.take (l.takeWhile p).length = l.takeWhile p :=
  (List.prefix_iff_eq_take.mp (List.takeWhile_prefix p)).symm

/-- **Past a class of characters**: the span shows them, and the cursor stands behind them. -/
theorem At.takeWhile (h : c.At t) (p : Char → Bool) :
    (c.takeWhile p).1.text t = c.rest.takeWhile p ∧ (c.takeWhile p).1.Within t ∧
      (c.takeWhile p).2.At t ∧ (c.takeWhile p).2.rest = c.rest.dropWhile p := by
  have hle := length_takeWhile_le p c.rest
  have hlen := h.length
  refine ⟨?_, show c.pos + _ ≤ t.length by omega, ?_, rfl⟩
  · exact (h.text _).trans (take_length_takeWhile p c.rest)
  · have := h.forward hle
    rwa [drop_length_takeWhile] at this

theorem At.skipSpaces (h : c.At t) :
    c.skipSpaces.At t ∧ c.skipSpaces.rest = c.rest.dropWhile (· == ' ') :=
  (h.takeWhile (· == ' ')).2.2

end Cursor

/-! ## 3. Words -/

theorem words_nil : words [] = [] := rfl

/-- A space belongs to no word. -/
theorem words_space (t : Text) : words (' ' :: t) = words t := by
  have h := List.splitOn_append_cons_self (a := ' ') [] t
  rw [List.nil_append] at h
  rw [words, h, List.filter_append]
  rfl

theorem words_dropWhile (t : Text) : words (t.dropWhile (· == ' ')) = words t := by
  induction t with
  | nil => rfl
  | cons c t ih =>
    by_cases hc : c = ' '
    · subst hc
      rw [words_space]
      exact ih
    · rw [List.dropWhile_cons_of_neg (by simpa using hc)]

/-- A word, and the words behind it. -/
theorem words_append {w : Text} (hw : w ≠ []) (hmem : ' ' ∉ w) (t : Text) :
    words (w ++ ' ' :: t) = w :: words t := by
  rw [words, List.splitOn_append_cons_self_of_not_mem hmem,
    List.filter_cons_of_pos (by simpa using hw)]
  rfl

theorem words_singleton {w : Text} (hw : w ≠ []) (hmem : ' ' ∉ w) : words w = [w] := by
  rw [words, List.splitOn_eq_singleton hmem, List.filter_cons_of_pos (by simpa using hw)]
  rfl

/-- The first word of a text. -/
def firstWord (t : Text) : Text := (t.dropWhile (· == ' ')).takeWhile (· != ' ')

/-- What follows the first word. -/
def afterWord (t : Text) : Text := (t.dropWhile (· == ' ')).dropWhile (· != ' ')

theorem space_not_mem_takeWhile (t : Text) : ' ' ∉ t.takeWhile (· != ' ') := by
  intro h
  have := List.mem_takeWhile_imp h
  simp at this

/-- Without a first word there are only spaces: no space stands in front of what follows them. -/
theorem dropWhile_eq_nil {t : Text} (h : firstWord t = []) : t.dropWhile (· == ' ') = [] := by
  unfold firstWord at h
  cases hu : t.dropWhile (· == ' ') with
  | nil => rfl
  | cons c u =>
    rw [hu] at h
    have hc : c = ' ' := by
      by_contra hne
      simp [hne] at h
    have := List.head?_dropWhile_not (· == ' ') t
    rw [hu] at this
    simp [hc] at this

/-- **The words of a text**: its first word, and the words of what follows. -/
theorem words_eq (t : Text) :
    words t = if firstWord t = [] then [] else firstWord t :: words (afterWord t) := by
  rw [← words_dropWhile, firstWord, afterWord]
  generalize hu : t.dropWhile (· == ' ') = u
  have hmem := space_not_mem_takeWhile u
  have happ : u.takeWhile (· != ' ') ++ u.dropWhile (· != ' ') = u := List.takeWhile_append_dropWhile
  by_cases hw : u.takeWhile (· != ' ') = []
  · rw [if_pos hw]
    rw [← hu] at hw ⊢
    rw [dropWhile_eq_nil hw]
    rfl
  · rw [if_neg hw]
    cases hd : u.dropWhile (· != ' ') with
    | nil =>
      rw [hd, List.append_nil] at happ
      have hs := words_singleton hw hmem
      rw [happ] at hs ⊢
      exact hs
    | cons c rest =>
      have hc : c = ' ' := by
        have := List.head?_dropWhile_not (· != ' ') u
        rw [hd] at this
        simpa using this
      subst hc
      rw [hd] at happ
      have hs := words_append hw hmem rest
      rw [happ] at hs
      rw [hs, words_space]

/-! ## 4. The words of a request line -/

/-- The method with a fixed name, or `custom` if the name is none of these. -/
def methodNamed (name : Text) : Method :=
  (Method.known.find? fun m => m.knownName.any (·.toList = name)).getD .custom

/-- **A known method** is the one of exactly its name. -/
theorem methodNamed_eq_iff {m : Method} {name : String} (h : m.knownName = some name) (w : Text) :
    methodNamed w = m ↔ w = name.toList := by
  constructor
  · intro hw
    unfold methodNamed at hw
    cases hf : Method.known.find? fun m => m.knownName.any (·.toList = w) with
    | none =>
      rw [hf, Option.getD_none] at hw
      rw [← hw] at h
      cases h
    | some m' =>
      rw [hf, Option.getD_some] at hw
      have := List.find?_some hf
      rw [hw, h] at this
      simpa [eq_comm] using this
  · rintro rfl
    cases m <;> simp only [Method.knownName, Option.some.injEq, reduceCtorEq] at h <;> subst h <;>
      decide

/-- The trie of the methods says which method a word is. -/
theorem lookup_methods (w : Text) :
    match WordTrie.lookup Method.words w with
    | some (m, name) => methodNamed w = m ∧ name = w
    | none => methodNamed w = .custom := by
  have hwords : ∀ p ∈ Method.words, methodNamed p.1 = p.2.1 ∧ p.2.2 = p.1 := by decide
  cases hl : WordTrie.lookup Method.words w with
  | some r =>
    obtain ⟨m, name⟩ := r
    obtain ⟨p, hp, hr⟩ := Option.map_eq_some_iff.mp hl
    have hmem := List.mem_reverse.mp (List.mem_of_find?_eq_some hp)
    have hw : p.1 = w := by simpa using List.find?_some hp
    have := hwords p hmem
    rw [hr, hw] at this
    exact this
  | none =>
    have hnone := Option.map_eq_none_iff.mp hl
    rw [List.find?_eq_none] at hnone
    cases hf : Method.known.find? fun m => m.knownName.any (·.toList = w) with
    | none => rw [methodNamed, hf, Option.getD_none]
    | some m =>
      -- a method with this name would be in the list
      exfalso
      have hm := List.find?_some hf
      have hmem := List.mem_of_find?_eq_some hf
      obtain ⟨name, hname, hn⟩ : ∃ name, m.knownName = some name ∧ name.toList = w := by
        simpa [Option.any_eq_true] using hm
      refine hnone (name.toList, m, name.toList) ?_ (by simpa using hn)
      rw [List.mem_reverse, Method.words, List.mem_filterMap]
      exact ⟨m, hmem, by rw [hname]; rfl⟩

theorem lookup_versions (w : Text) :
    ∀ v ∈ WordTrie.lookup (["HTTP/1.0", "HTTP/1.1"].map fun v => (v.toList, v.toList)) w, v = w := by
  intro v hv
  obtain ⟨p, hp, rfl⟩ := Option.map_eq_some_iff.mp hv
  have hmem := List.mem_reverse.mp (List.mem_of_find?_eq_some hp)
  have hw : p.1 = w := by simpa using List.find?_some hp
  have hsame : ∀ p ∈ ["HTTP/1.0", "HTTP/1.1"].map fun v => (v.toList, v.toList), p.2 = p.1 := by
    decide
  rw [hsame p hmem, hw]

section Readers

variable {t : Text} {c : Cursor}

/-- The next word is read as `ref`, and the cursor goes behind it. -/
def ReadsWord (t : Text) (c : Cursor) (ref : TextRef) (after : Cursor) : Prop :=
  ref.text t = firstWord c.rest ∧ ref.Within t ∧ after.At t ∧ after.rest = afterWord c.rest

/-- A word that is read as a span. -/
theorem readsWord_span (h : c.At t) :
    ReadsWord t c (.span c.skipSpaces.word.1) c.skipSpaces.word.2 ∧
      (c.skipSpaces.word.1.start < c.skipSpaces.word.1.stop ↔ firstWord c.rest ≠ []) := by
  obtain ⟨hskip, hrest⟩ := h.skipSpaces
  obtain ⟨htext, hwithin, hat, hafter⟩ := hskip.takeWhile (· != ' ')
  rw [hrest] at htext hafter
  refine ⟨⟨htext, hwithin, hat, hafter⟩, ?_⟩
  show c.skipSpaces.pos < c.skipSpaces.pos + (c.skipSpaces.rest.takeWhile (· != ' ')).length ↔ _
  rw [hrest, Nat.lt_add_right_iff_pos, List.length_pos_iff]
  rfl

/-- A word that is read as a literal. -/
theorem readsWord_literal (h : c.At t) :
    ReadsWord t c (.literal (firstWord c.rest))
      (c.skipSpaces.advance (firstWord c.rest).length) := by
  obtain ⟨hskip, hrest⟩ := h.skipSpaces
  have hle : (firstWord c.rest).length ≤ c.skipSpaces.rest.length := by
    rw [hrest]
    exact Cursor.length_takeWhile_le ..
  refine ⟨rfl, trivial, hskip.forward hle, ?_⟩
  show c.skipSpaces.rest.drop _ = _
  rw [hrest]
  exact Cursor.drop_length_takeWhile ..

/-- A search behind the spaces looks up the next word. -/
theorem search_firstWord {α : Type} (words : List (Text × α)) (h : c.At t) :
    (WordTrie.ofWords words).search (· == ' ') c.skipSpaces.rest =
      if firstWord c.rest = [] then none
      else (WordTrie.lookup words (firstWord c.rest)).map (·, (firstWord c.rest).length) := by
  rw [h.skipSpaces.2]
  exact WordTrie.search_ofWords words (· == ' ') _

theorem readMethod_eq (h : c.At t) :
    if firstWord c.rest = [] then readMethod c = .error (.startLine .missingMethod)
    else ∃ ref after, readMethod c = .ok (methodNamed (firstWord c.rest), ref, after) ∧
      ReadsWord t c ref after := by
  obtain ⟨hspan, hne⟩ := readsWord_span h
  have hlit := readsWord_literal h
  have hsearch : Method.trie.search (· == ' ') c.skipSpaces.rest = _ :=
    search_firstWord Method.words h
  have hlookup := lookup_methods (firstWord c.rest)
  unfold readMethod
  dsimp only
  rw [hsearch]
  by_cases hw : firstWord c.rest = []
  · rw [if_pos hw, if_pos hw]
    dsimp only
    rw [if_neg (mt hne.mp (not_not.mpr hw))]
  · rw [if_neg hw, if_neg hw]
    cases hl : WordTrie.lookup Method.words (firstWord c.rest) with
    | none =>
      rw [hl] at hlookup
      dsimp only [Option.map_none]
      rw [if_pos (hne.mpr hw), hlookup]
      exact ⟨_, _, rfl, hspan⟩
    | some r =>
      obtain ⟨m, name⟩ := r
      rw [hl] at hlookup
      obtain ⟨hm, rfl⟩ := hlookup
      dsimp only [Option.map_some]
      rw [hm]
      exact ⟨_, _, rfl, hlit⟩

theorem readTarget_eq (h : c.At t) :
    if firstWord c.rest = [] then readTarget c = .error (.startLine .missingTarget)
    else ∃ ref after, readTarget c = .ok (ref, after) ∧ ReadsWord t c ref after := by
  obtain ⟨hspan, hne⟩ := readsWord_span h
  unfold readTarget
  dsimp only
  by_cases hw : firstWord c.rest = []
  · rw [if_pos hw, if_neg (mt hne.mp (not_not.mpr hw))]
  · rw [if_neg hw, if_pos (hne.mpr hw)]
    by_cases hroot : c.skipSpaces.word.1.stop - c.skipSpaces.word.1.start = 1 ∧
        c.skipSpaces.rest.head? = some '/'
    · rw [if_pos hroot]
      refine ⟨_, _, rfl, ?_, trivial, hspan.2.2⟩
      -- one character, and it is the root
      obtain ⟨hone, hhead⟩ := hroot
      change c.skipSpaces.pos + _ - c.skipSpaces.pos = 1 at hone
      rw [Nat.add_sub_cancel_left, h.skipSpaces.2] at hone
      rw [h.skipSpaces.2] at hhead
      obtain ⟨d, hd⟩ := List.length_eq_one_iff.mp hone
      obtain ⟨rest, hrest⟩ := List.takeWhile_prefix (· != ' ') (l := c.rest.dropWhile (· == ' '))
      rw [hd] at hrest
      rw [← hrest] at hhead
      rw [firstWord, hd, Option.some.inj hhead]
      rfl
    · rw [if_neg hroot]
      exact ⟨_, _, rfl, hspan⟩

theorem readVersion_eq (h : c.At t) :
    if firstWord c.rest = [] then readVersion c = .error (.startLine .missingVersion)
    else ∃ ref after, readVersion c = .ok (ref, after) ∧ ReadsWord t c ref after := by
  obtain ⟨hspan, hne⟩ := readsWord_span h
  have hlit := readsWord_literal h
  have hsearch : versionTrie.search (· == ' ') c.skipSpaces.rest = _ := search_firstWord _ h
  have hlookup := lookup_versions (firstWord c.rest)
  unfold readVersion
  dsimp only
  rw [hsearch]
  by_cases hw : firstWord c.rest = []
  · rw [if_pos hw, if_pos hw]
    dsimp only
    rw [if_neg (mt hne.mp (not_not.mpr hw))]
  · rw [if_neg hw, if_neg hw]
    cases hl : WordTrie.lookup (["HTTP/1.0", "HTTP/1.1"].map fun v => (v.toList, v.toList))
        (firstWord c.rest) with
    | none =>
      dsimp only [Option.map_none]
      rw [if_pos (hne.mpr hw)]
      exact ⟨_, _, rfl, hspan⟩
    | some v =>
      obtain rfl := hlookup v hl
      exact ⟨_, _, rfl, hlit⟩

end Readers

/-- **A line is a request line exactly when it has three words**, and these are its parts. -/
theorem ofText_eq (line : Text) :
    match words line with
    | [method, target, version] =>
      ∃ parsed, RequestLine.ofText line = .ok parsed ∧ parsed.method = methodNamed method ∧
        (parsed.methodText.text line = method ∧ parsed.methodText.Within line) ∧
        (parsed.uri.text line = target ∧ parsed.uri.Within line) ∧
        parsed.version.text line = version ∧ parsed.version.Within line
    | _ => ∃ fault, RequestLine.ofText line = .error (.startLine fault) := by
  have h₁ : Cursor.At line ⟨0, line⟩ := ⟨Nat.zero_le _, rfl⟩
  have hm := readMethod_eq h₁
  unfold RequestLine.ofText
  rw [words_eq line]
  by_cases hw₁ : firstWord line = []
  · rw [if_pos hw₁] at hm ⊢
    rw [hm]
    exact ⟨_, rfl⟩
  · rw [if_neg hw₁] at hm ⊢
    obtain ⟨methodText, c₂, hread₁, htext₁, hin₁, h₂, hrest₁⟩ := hm
    rw [hread₁]
    have ht := readTarget_eq h₂
    rw [hrest₁] at ht
    rw [words_eq (afterWord line)]
    by_cases hw₂ : firstWord (afterWord line) = []
    · rw [if_pos hw₂] at ht ⊢
      exact ⟨_, by simp only [bind, Except.bind, ht]; rfl⟩
    · rw [if_neg hw₂] at ht ⊢
      obtain ⟨uri, c₃, hread₂, ⟨htext₂, hin₂, h₃, hrest₂⟩⟩ := ht
      rw [hrest₁] at htext₂ hrest₂
      have hv := readVersion_eq h₃
      rw [hrest₂] at hv
      rw [words_eq (afterWord (afterWord line))]
      by_cases hw₃ : firstWord (afterWord (afterWord line)) = []
      · rw [if_pos hw₃] at hv ⊢
        exact ⟨_, by simp only [bind, Except.bind, hread₂, hv]; rfl⟩
      · rw [if_neg hw₃] at hv ⊢
        obtain ⟨version, c₄, hread₃, ⟨htext₃, hin₃, h₄, hrest₃⟩⟩ := hv
        rw [hrest₂] at htext₃ hrest₃
        rw [words_eq (afterWord (afterWord (afterWord line)))]
        have hend := h₄.skipSpaces.2
        rw [hrest₃] at hend
        by_cases hw₄ : firstWord (afterWord (afterWord (afterWord line))) = []
        · rw [if_pos hw₄]
          rw [dropWhile_eq_nil hw₄] at hend
          refine ⟨⟨_, methodText, uri, version⟩, ?_, rfl, ⟨htext₁, hin₁⟩, ⟨htext₂, hin₂⟩, htext₃, hin₃⟩
          simp only [bind, Except.bind, hread₂, hread₃, hend]
          rfl
        · rw [if_neg hw₄]
          have hne : c₄.skipSpaces.rest.isEmpty = false := by
            rw [hend, List.isEmpty_eq_false_iff]
            intro hnil
            rw [firstWord, hnil] at hw₄
            exact hw₄ rfl
          exact ⟨_, by simp only [bind, Except.bind, hread₂, hread₃, hne]; rfl⟩

/-- A line of three words is a request line of these words. -/
theorem ofText_of_words {line method target version : Text}
    (h : words line = [method, target, version]) :
    ∃ parsed, RequestLine.ofText line = .ok parsed ∧ parsed.method = methodNamed method ∧
      (parsed.methodText.text line = method ∧ parsed.methodText.Within line) ∧
      (parsed.uri.text line = target ∧ parsed.uri.Within line) ∧
      parsed.version.text line = version ∧ parsed.version.Within line := by
  have hline := ofText_eq line
  rw [h] at hline
  exact hline

/-- A line of fewer or more words is no request line. -/
theorem ofText_of_not_words {line : Text}
    (h : ∀ method target version, words line ≠ [method, target, version]) :
    ∃ fault, RequestLine.ofText line = .error (.startLine fault) := by
  have hline := ofText_eq line
  split at hline
  · exact absurd ‹_› (h _ _ _)
  · exact hline

/-! ## 5. Header lines -/

/-- **Past spaces and colons**, as long as there is at most one colon among them. -/
theorem separator_eq (colons pos : Nat) (t : Text)
    (h : colons + (t.takeWhile isGap).count ':' ≤ 1) :
    Cursor.separator colons pos t =
      (colons + (t.takeWhile isGap).count ':',
        ⟨pos + (t.takeWhile isGap).length, t.dropWhile isGap⟩) := by
  induction t generalizing colons pos with
  | nil => rfl
  | cons c t ih =>
    rw [Cursor.separator]
    by_cases hcolon : c = ':'
    · subst hcolon
      have hgap : isGap ':' = true := rfl
      rw [List.takeWhile_cons_of_pos hgap, List.count_cons_self] at h ⊢
      rw [if_pos rfl, if_neg (by omega), ih _ _ (by omega), List.dropWhile_cons_of_pos hgap,
        List.length_cons]
      congr 1
      · omega
      · congr 1
        omega
    · rw [if_neg hcolon]
      by_cases hspace : c = ' '
      · subst hspace
        have hgap : isGap ' ' = true := rfl
        rw [List.takeWhile_cons_of_pos hgap, List.count_cons_of_ne (by decide)] at h ⊢
        rw [if_pos rfl, ih _ _ h, List.dropWhile_cons_of_pos hgap, List.length_cons]
        congr 2
        omega
      · have hgap : ¬ isGap c = true := by simp [isGap, hcolon, hspace]
        rw [if_neg hspace, List.takeWhile_cons_of_neg hgap, List.dropWhile_cons_of_neg hgap]
        rfl

/-- The second colon is counted too. -/
theorem separator_of_two (colons pos : Nat) (t : Text) (hcolons : colons ≤ 1)
    (h : 1 < colons + (t.takeWhile isGap).count ':') :
    (Cursor.separator colons pos t).1 = 2 := by
  induction t generalizing colons pos with
  | nil =>
    simp only [List.takeWhile_nil, List.count_nil] at h
    omega
  | cons c t ih =>
    rw [Cursor.separator]
    by_cases hcolon : c = ':'
    · subst hcolon
      have hgap : isGap ':' = true := rfl
      rw [List.takeWhile_cons_of_pos hgap, List.count_cons_self] at h
      rw [if_pos rfl]
      by_cases hpos : 0 < colons
      · rw [if_pos hpos]
        show colons + 1 = 2
        omega
      · rw [if_neg hpos]
        exact ih _ _ (by omega) (by omega)
    · rw [if_neg hcolon]
      by_cases hspace : c = ' '
      · subst hspace
        have hgap : isGap ' ' = true := rfl
        rw [List.takeWhile_cons_of_pos hgap, List.count_cons_of_ne (by decide)] at h
        rw [if_pos rfl]
        exact ih _ _ hcolons h
      · have hgap : ¬ isGap c = true := by simp [isGap, hcolon, hspace]
        rw [List.takeWhile_cons_of_neg hgap, List.count_nil] at h
        omega

/-- An entry of the header index says this name and this value of a text. -/
structure HeaderEntry.Says (e : HeaderEntry) (t name value : Text) : Prop where
  name_text : e.name.text t = name
  name_within : e.name.Within t
  name_le : e.name.start ≤ e.name.stop
  value_text : e.value.text t = value
  value_within : e.value.Within t
  value_le : e.value.start ≤ e.value.stop
  nameHash_eq : e.nameHash = name.hashLower
  valueHash_eq : e.valueHash = value.hashLower

theorem HeaderEntry.Says.append {e : HeaderEntry} {t name value : Text} (h : e.Says t name value)
    (u : Text) : e.Says (t ++ u) name value where
  name_text := (Span.text_append h.name_within u).trans h.name_text
  name_within := h.name_within.append u
  name_le := h.name_le
  value_text := (Span.text_append h.value_within u).trans h.value_text
  value_within := h.value_within.append u
  value_le := h.value_le
  nameHash_eq := h.nameHash_eq
  valueHash_eq := h.valueHash_eq

/-! ## 6. The parts of a header line -/

/-- The name at the front of a line. -/
def nameOf (line : Text) : Text := line.takeWhile fun c => c != ' ' && c != ':'

/-- The spaces and colons behind the name. -/
def gapOf (line : Text) : Text := (line.drop (nameOf line).length).takeWhile isGap

/-- What follows the spaces and colons. -/
def restOf (line : Text) : Text := (line.drop (nameOf line).length).dropWhile isGap

/-- The value: what follows, without the spaces at its end. -/
def valueOf (line : Text) : Text := (restOf line).rdropWhile (· == ' ')

/-- What a header line is by its parts, the first spaces behind it. -/
def Cursor.header (c : Cursor) : Except MessageError (Option HeaderEntry) :=
  let name := nameOf c.rest
  let gap := gapOf c.rest
  let value := valueOf c.rest
  if c.rest = [] then .ok none
  else if name = [] then .error (.headerLine (.emptyName c.rest))
  else if gap.count ':' = 0 then .error (.headerLine (.noColon c.rest))
  else if 1 < gap.count ':' then .error (.multipleColons name)
  else if value = [] then .error (.missingValue name)
  else
    .ok (some
      { nameHash := name.hashLower
        valueHash := value.hashLower
        name := ⟨c.pos, c.pos + name.length⟩
        value := ⟨c.pos + name.length + gap.length,
          c.pos + name.length + gap.length + value.length⟩ })

/-- **A header line is read by its parts.** -/
theorem headerOfLine_eq_header (base : Nat) (line : Text) :
    headerOfLine base line = (⟨base, line⟩ : Cursor).skipSpaces.header := by
  unfold headerOfLine Cursor.header
  generalize (⟨base, line⟩ : Cursor).skipSpaces = c
  have hname : c.name =
      (⟨c.pos, c.pos + (nameOf c.rest).length⟩,
        ⟨c.pos + (nameOf c.rest).length, c.rest.drop (nameOf c.rest).length⟩) := by
    rw [nameOf, Cursor.drop_length_takeWhile]
    rfl
  have htake : c.rest.take (c.pos + (nameOf c.rest).length - c.pos) = nameOf c.rest := by
    rw [Nat.add_sub_cancel_left]
    exact Cursor.take_length_takeWhile _ c.rest
  dsimp only
  by_cases hempty : c.rest = []
  · rw [if_pos hempty, if_pos (by rw [hempty]; rfl)]
  rw [if_neg hempty, if_neg (by simpa using hempty), hname]
  dsimp only
  rw [htake]
  by_cases hnone : nameOf c.rest = []
  · rw [if_pos hnone, if_neg (by rw [hnone]; exact Nat.lt_irrefl _)]
  rw [if_neg hnone, if_pos (Nat.lt_add_of_pos_right (List.length_pos_iff.mpr hnone))]
  have hsep := separator_eq 0 (c.pos + (nameOf c.rest).length) (c.rest.drop (nameOf c.rest).length)
  have htwo := separator_of_two 0 (c.pos + (nameOf c.rest).length)
    (c.rest.drop (nameOf c.rest).length) (Nat.zero_le _)
  rw [← gapOf, ← restOf] at hsep
  rw [← gapOf] at htwo
  rw [Nat.zero_add] at hsep htwo
  rcases Nat.lt_trichotomy ((gapOf c.rest).count ':') 1 with hcount | hcount | hcount
  · have h0 : (gapOf c.rest).count ':' = 0 := Nat.lt_one_iff.mp hcount
    simp only [hsep (Nat.le_of_lt hcount), h0, if_true]
  · rw [hsep (Nat.le_of_eq hcount), hcount, if_neg (by decide), if_neg (by decide)]
    change (if (valueOf c.rest).isEmpty = true then _ else _) = _
    by_cases hv : valueOf c.rest = []
    · rw [if_pos hv, hv]
      rfl
    · rw [if_neg hv, if_neg (by simpa using hv)]
      rfl
  · rw [if_neg (by omega), if_pos hcount]
    have h2 := htwo hcount
    generalize Cursor.separator 0 _ _ = found at h2 ⊢
    obtain ⟨colons, after⟩ := found
    obtain rfl : colons = 2 := h2
    rfl

/-- What a header line shows is in its parts. -/
theorem headerShown_eq (line : Text) :
    headerShown line =
      if line.dropWhile (· == ' ') = [] then .ok none
      else if nameOf (line.dropWhile (· == ' ')) = [] ∨
          (gapOf (line.dropWhile (· == ' '))).count ':' = 0 then .error .headerLine
      else if 1 < (gapOf (line.dropWhile (· == ' '))).count ':' then .error .multipleColons
      else if valueOf (line.dropWhile (· == ' ')) = [] then .error .missingValue
      else .ok (some (nameOf (line.dropWhile (· == ' ')), valueOf (line.dropWhile (· == ' ')))) := by
  have hrest : ∀ t : Text, t.drop ((nameOf t).length + (gapOf t).length) = restOf t := by
    intro t
    rw [← List.drop_drop, gapOf, Cursor.drop_length_takeWhile]
    rfl
  unfold valueOf
  rw [← hrest]
  rfl

/-- The entry of a header line says its parts. -/
theorem says_parts {t : Text} {c : Cursor} (h : c.At t) :
    HeaderEntry.Says
      { nameHash := (nameOf c.rest).hashLower
        valueHash := (valueOf c.rest).hashLower
        name := ⟨c.pos, c.pos + (nameOf c.rest).length⟩
        value := ⟨c.pos + (nameOf c.rest).length + (gapOf c.rest).length,
          c.pos + (nameOf c.rest).length + (gapOf c.rest).length +
            (valueOf c.rest).length⟩ }
      t (nameOf c.rest) (valueOf c.rest) := by
  obtain ⟨hname, hnameIn, -, -⟩ := h.takeWhile fun ch => ch != ' ' && ch != ':'
  have hgap := h.forward (n := (nameOf c.rest).length) (Cursor.length_takeWhile_le _ c.rest)
  have hvalue := hgap.forward (n := (gapOf c.rest).length) (Cursor.length_takeWhile_le isGap _)
  dsimp only at hvalue
  rw [gapOf, Cursor.drop_length_takeWhile] at hvalue
  have hprefix := List.rdropWhile_prefix (· == ' ') (restOf c.rest)
  have hlen := hvalue.length
  exact
    { name_text := hname
      name_within := hnameIn
      name_le := Nat.le_add_right ..
      value_text := (hvalue.text _).trans (List.prefix_iff_eq_take.mp hprefix).symm
      value_within :=
        Nat.le_trans (Nat.add_le_add_left hprefix.length_le _) (Nat.le_of_eq hlen)
      value_le := Nat.le_add_right ..
      nameHash_eq := rfl
      valueHash_eq := rfl }

/-- **A header line** is read as the name and the value that it shows, and its fault is the one that it
    has. -/
theorem headerOfLine_eq (before line : Text) :
    match headerShown line with
    | .ok none => headerOfLine before.length line = .ok none
    | .ok (some (name, value)) =>
      ∃ e, headerOfLine before.length line = .ok (some e) ∧ e.Says (before ++ line) name value
    | .error f => ∃ e, headerOfLine before.length line = .error e ∧ e.headFault? = some f := by
  have hat : Cursor.At (before ++ line) ⟨before.length, line⟩ :=
    ⟨by simp only [List.length_append, Nat.le_add_right], List.drop_left.symm⟩
  obtain ⟨hskip, hrest⟩ := hat.skipSpaces
  change _ = line.dropWhile (· == ' ') at hrest
  have hsays := says_parts hskip
  rw [headerOfLine_eq_header, headerShown_eq]
  unfold Cursor.header
  generalize (⟨before.length, line⟩ : Cursor).skipSpaces = c at hrest hsays ⊢
  rw [← hrest]
  dsimp only
  by_cases hempty : c.rest = []
  · rw [if_pos hempty, if_pos hempty]
  rw [if_neg hempty, if_neg hempty]
  by_cases hname : nameOf c.rest = []
  · rw [if_pos (.inl hname), if_pos hname]
    exact ⟨_, rfl, rfl⟩
  rw [if_neg hname]
  by_cases hcolon : (gapOf c.rest).count ':' = 0
  · rw [if_pos (.inr hcolon), if_pos hcolon]
    exact ⟨_, rfl, rfl⟩
  rw [if_neg (not_or.mpr ⟨hname, hcolon⟩), if_neg hcolon]
  by_cases hcolons : 1 < (gapOf c.rest).count ':'
  · rw [if_pos hcolons, if_pos hcolons]
    exact ⟨_, rfl, rfl⟩
  rw [if_neg hcolons, if_neg hcolons]
  by_cases hvalue : valueOf c.rest = []
  · rw [if_pos hvalue, if_pos hvalue]
    exact ⟨_, rfl, rfl⟩
  · rw [if_neg hvalue, if_neg hvalue]
    exact ⟨_, rfl, hsays⟩

end Sluice.Http
