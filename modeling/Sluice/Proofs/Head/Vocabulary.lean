/-
  File:      Sluice/Proofs/Head/Vocabulary.lean
  Subject:   Known words are found as in a dictionary.

  * `lookup_eq_getLast?`: of the pairs of a list that have a word, the last one counts, and pairs of
    other words do not;
  * `FoundAmong`: the answer of a dictionary, the value of the last pair of a word and its length;
  * `readWord`: a word of a start line, read without asking whether it is a known one;
  * `shown_eq`: a reader of words shows what `readWord` reads, and goes as far;
  * **`search_found`**: the trie of a word list answers as the list does, and methods and versions,
    which are looked for in tries, are read as any word is.
-/
import Sluice.Proofs.Head.Words

namespace Sluice.WordTrie

variable {α : Type} {words words' : List (Text × α)} {w : Text} {v : α}

/-! ## 1. Dictionaries -/

/-- A word list says what the last pair of the word says. -/
theorem lookup_eq_getLast? (words : List (Text × α)) (w : Text) :
    lookup words w = ((words.filter fun p => p.1 = w).getLast?).map (·.2) := by
  rw [lookup, ← List.head?_filter, List.filter_reverse, List.head?_reverse]

theorem lookup_eq_none_iff : lookup words w = none ↔ ∀ p ∈ words, p.1 ≠ w := by
  rw [lookup, Option.map_eq_none_iff, List.find?_eq_none]
  simp only [List.mem_reverse, decide_eq_true_eq, ne_eq]

/-- **The last pair of a word** is the one behind which the word does not come again. -/
theorem lookup_eq_some_iff : lookup words w = some v ↔
    ∃ before after, words = before ++ (w, v) :: after ∧ ∀ p ∈ after, p.1 ≠ w := by
  rw [lookup, Option.map_eq_some_iff]
  constructor
  · rintro ⟨⟨u, _⟩, hfind, rfl⟩
    obtain ⟨hu, later, earlier, hsplit, hlater⟩ := List.find?_eq_some_iff_append.mp hfind
    obtain rfl : u = w := of_decide_eq_true hu
    refine ⟨earlier.reverse, later.reverse, ?_, fun p hp => ?_⟩
    · rw [← List.reverse_reverse words, hsplit]
      simp only [List.reverse_append, List.reverse_cons, List.append_assoc, List.singleton_append]
    · simpa using hlater p (List.mem_reverse.mp hp)
  · rintro ⟨before, after, rfl, hafter⟩
    refine ⟨(w, v), List.find?_eq_some_iff_append.mpr
      ⟨decide_eq_true rfl, after.reverse, before.reverse, ?_, fun p hp => ?_⟩, rfl⟩
    · simp only [List.reverse_append, List.reverse_cons, List.append_assoc, List.singleton_append]
    · simpa using hafter p (List.mem_reverse.mp hp)

/-- The answer of a dictionary for a word: the value of its last pair, and the length of the
    word. -/
structure FoundAmong (words : List (Text × α)) (word : Text) (answer : Option (α × Nat)) :
    Prop where
  found : ∀ v n, answer = some (v, n) ↔ n = word.length ∧
    ∃ before after, words = before ++ (word, v) :: after ∧ ∀ p ∈ after, p.1 ≠ word
  missing : answer = none ↔ ∀ p ∈ words, p.1 ≠ word

theorem foundAmong_lookup (words : List (Text × α)) (word : Text) :
    FoundAmong words word ((lookup words word).map (·, word.length)) where
  found v n := by
    rw [Option.map_eq_some_iff, and_comm, ← lookup_eq_some_iff]
    constructor
    · rintro ⟨u, hu, heq⟩
      obtain ⟨rfl, rfl⟩ := Prod.mk.inj heq
      exact ⟨hu, rfl⟩
    · rintro ⟨hv, rfl⟩
      exact ⟨v, hv, rfl⟩
  missing := by rw [Option.map_eq_none_iff, lookup_eq_none_iff]

/-- If no word is empty, no text has to be told apart from one that begins with a stop. -/
theorem search_eq_lookup (hwords : ∀ p ∈ words, p.1 ≠ []) (stop : Char → Bool) (text : Text) :
    (ofWords words).search stop text =
      (lookup words (text.takeWhile (!stop ·))).map (·, (text.takeWhile (!stop ·)).length) := by
  rw [search_ofWords]
  by_cases hnil : text.takeWhile (!stop ·) = []
  · rw [if_pos hnil, hnil, lookup_eq_none_iff.mpr hwords]
    rfl
  · rw [if_neg hnil]

/-- **Only the order among pairs of one word counts.** -/
theorem search_congr (h : ∀ w, (words'.filter fun p => p.1 = w) = words.filter fun p => p.1 = w)
    (stop : Char → Bool) (text : Text) :
    (ofWords words').search stop text = (ofWords words).search stop text := by
  rw [search_ofWords, search_ofWords, lookup_eq_getLast?, lookup_eq_getLast?, h]

end Sluice.WordTrie

namespace Sluice.Http

open WordTrie (FoundAmong)

/-! ## 2. Words of a start line -/

/-- The next word of a start line, whether it is a known one or not. -/
def readWord (missing : StartLineFault) (c : Cursor) : Except MessageError (Span × Cursor) :=
  let (s, after) := c.skipSpaces.word
  if s.start < s.stop then .ok (s, after) else .error (.startLine missing)

variable {t : Text} {c after after' : Cursor} {ref ref' : TextRef} {missing : StartLineFault}

/-- Where a cursor stands is told by what follows there. -/
theorem Cursor.At.eq_of_rest (h : after.At t) (h' : after'.At t)
    (hrest : after.rest = after'.rest) : after = after' := by
  have hlen := h.length
  rw [hrest, ← h'.length] at hlen
  obtain ⟨pos, rest⟩ := after
  obtain ⟨pos', rest'⟩ := after'
  obtain rfl : rest = rest' := hrest
  obtain rfl : pos = pos' := Nat.add_right_cancel hlen
  rfl

/-- There is one way to read the next word. -/
theorem ReadsWord.unique (h : ReadsWord t c ref after) (h' : ReadsWord t c ref' after') :
    ref.text t = ref'.text t ∧ after = after' := by
  obtain ⟨htext, -, hat, hrest⟩ := h
  obtain ⟨htext', -, hat', hrest'⟩ := h'
  exact ⟨htext.trans htext'.symm, hat.eq_of_rest hat' (hrest.trans hrest'.symm)⟩

theorem readWord_eq (missing : StartLineFault) (h : c.At t) :
    if firstWord c.rest = [] then readWord missing c = .error (.startLine missing)
    else ∃ s after, readWord missing c = .ok (s, after) ∧ ReadsWord t c (.span s) after := by
  obtain ⟨hspan, hne⟩ := readsWord_span h
  by_cases hw : firstWord c.rest = []
  · rw [if_pos hw]
    exact if_neg (mt hne.mp (not_not.mpr hw))
  · rw [if_neg hw]
    exact ⟨_, _, if_pos (hne.mpr hw), hspan⟩

/-- **A reader of words** shows what `readWord` reads, and goes as far, whatever else it answers. -/
theorem shown_eq {ρ : Type} {r : Except MessageError ρ} {view : ρ → Text × Cursor}
    (make : TextRef → Cursor → ρ) (hview : ∀ ref after, view (make ref after) = (ref.text t, after))
    (h : c.At t)
    (hread : if firstWord c.rest = [] then r = .error (.startLine missing)
      else ∃ ref after, r = .ok (make ref after) ∧ ReadsWord t c ref after) :
    r.map view = (readWord missing c).map fun a => (a.1.text t, a.2) := by
  have hword := readWord_eq missing h
  by_cases hw : firstWord c.rest = []
  · rw [if_pos hw] at hread hword
    rw [hread, hword]
    rfl
  · rw [if_neg hw] at hread hword
    obtain ⟨ref, after, rfl, href⟩ := hread
    obtain ⟨s, after', hs, hspan⟩ := hword
    obtain ⟨htext, hafter⟩ := href.unique hspan
    rw [hs]
    exact congrArg Except.ok ((hview ref after).trans (Prod.ext htext hafter))

theorem shown_readMethod (h : c.At t) :
    (readMethod c).map (fun a => (a.2.1.text t, a.2.2)) =
      (readWord .missingMethod c).map fun a => (a.1.text t, a.2) :=
  shown_eq (fun ref after => (methodNamed (firstWord c.rest), ref, after)) (fun _ _ => rfl) h
    (readMethod_eq h)

theorem shown_readVersion (h : c.At t) :
    (readVersion c).map (fun a => (a.1.text t, a.2)) =
      (readWord .missingVersion c).map fun a => (a.1.text t, a.2) :=
  shown_eq (fun ref after => (ref, after)) (fun _ _ => rfl) h (readVersion_eq h)

/-- **Words are found as in a dictionary**: a trie says what its word list says of the characters
    before the first stop, in whatever order words of different spelling were put in; and so a
    method or a version is shown as the word that it is, and what follows is what follows this
    word. -/
theorem search_found {α : Type} {words : List (Text × α)} (hwords : ∀ p ∈ words, p.1 ≠ [])
    (stop : Char → Bool) (text : Text) {t : Text} {c : Cursor} (hc : c.At t) :
    FoundAmong words (text.takeWhile (!stop ·)) ((WordTrie.ofWords words).search stop text) ∧
      (∀ words' : List (Text × α),
        (∀ w, (words'.filter fun p => p.1 = w) = words.filter fun p => p.1 = w) →
          (WordTrie.ofWords words').search stop text =
            (WordTrie.ofWords words).search stop text) ∧
      (readMethod c).map (fun a => (a.2.1.text t, a.2.2)) =
        (readWord .missingMethod c).map (fun a => (a.1.text t, a.2)) ∧
      (readVersion c).map (fun a => (a.1.text t, a.2)) =
        (readWord .missingVersion c).map fun a => (a.1.text t, a.2) := by
  refine ⟨?_, fun words' h => WordTrie.search_congr h stop text, shown_readMethod hc,
    shown_readVersion hc⟩
  rw [WordTrie.search_eq_lookup hwords]
  exact WordTrie.foundAmong_lookup words _

/-- A word that is in the list twice, beside one that begins with it. -/
theorem search_found_twice :
    let words := [("PUT".toList, 3), ("PUTS".toList, 4), ("PUT".toList, 5)]
    let line := "PUT /x HTTP/1.1".toList
    (∀ p ∈ words, p.1 ≠ []) ∧ Cursor.At line ⟨0, line⟩ ∧
      (WordTrie.ofWords words).search (· == ' ') line = some (5, 3) ∧
      (readMethod ⟨0, line⟩).map (fun a => (a.2.1.text line, a.2.2)) =
        (readWord .missingMethod ⟨0, line⟩).map fun a => (a.1.text line, a.2) := by
  intro words line
  have hwords : ∀ p ∈ words, p.1 ≠ [] := by decide
  have hc : Cursor.At line ⟨0, line⟩ := ⟨Nat.zero_le _, rfl⟩
  obtain ⟨hfound, -, hmethod, -⟩ := search_found hwords (· == ' ') line hc
  exact ⟨hwords, hc, (hfound.found 5 3).mpr ⟨rfl, words.take 2, [], rfl, nofun⟩, hmethod⟩

end Sluice.Http
