import Mathlib.Data.List.DropRight
import Mathlib.Data.List.TakeWhile
import CodeAtlas.Proofs.Entity.Components

/-! # The tokens of a name

A name is a sequence of tokens: each punctuation character is one, and so is each run of characters
that are neither blank nor punctuation. The canonical form of a name spells its tokens with one
space between two words and nothing else, so two names have one form exactly if they have the same
tokens.
-/

namespace CodeAtlas.Uri

inductive Token where
  | mark (c : Char)
  | word (cs : List Char)
  deriving DecidableEq, Repr

namespace Token

def text : Token → List Char
  | mark c => [c]
  | word cs => cs

/-- A space stands between two words, and nothing between other tokens. -/
def gap : Token → Token → List Char
  | word _, word _ => [' ']
  | _, _ => []

end Token

open Token

def isWordPart (c : Char) : Bool := !Text.isBlank c && !isPunctuation c

/-- The tokens of a name: a word goes on for as long as it can. -/
def tokens : List Char → List Token
  | [] => []
  | c :: cs =>
    if isPunctuation c then mark c :: tokens cs
    else if Text.isBlank c then tokens cs
    else word (c :: cs.takeWhile isWordPart) :: tokens (cs.dropWhile isWordPart)
termination_by cs => cs.length
decreasing_by
  · exact Nat.lt_succ_self _
  · exact Nat.lt_succ_self _
  · exact Nat.lt_succ_of_le (List.dropWhile_sublist _).length_le

def spell : List Token → List Char
  | [] => []
  | [t] => t.text
  | t :: u :: ts => t.text ++ gap t u ++ spell (u :: ts)

section Cons

variable {c : Char} (cs : List Char)

theorem isBlank_of_isPunctuation (h : isPunctuation c = true) : Text.isBlank c = false := by
  simp only [isPunctuation, Bool.or_eq_true, beq_iff_eq] at h
  rcases h with (((rfl | rfl) | rfl) | rfl) | rfl <;> decide

theorem isPunctuation_of_isBlank (h : Text.isBlank c = true) : isPunctuation c = false := by
  by_contra hc
  rw [isBlank_of_isPunctuation (by simpa using hc)] at h
  exact Bool.false_ne_true h

theorem isWordPart_iff :
    isWordPart c = true ↔ Text.isBlank c = false ∧ isPunctuation c = false := by
  simp [isWordPart]

theorem tokens_cons_of_isPunctuation (h : isPunctuation c = true) :
    tokens (c :: cs) = mark c :: tokens cs := by
  rw [tokens, if_pos h]

theorem tokens_cons_of_isBlank (h : Text.isBlank c = true) : tokens (c :: cs) = tokens cs := by
  rw [tokens, isPunctuation_of_isBlank h, if_neg Bool.false_ne_true, if_pos h]

theorem tokens_cons_of_isWordPart (h : isWordPart c = true) :
    tokens (c :: cs) =
      word (c :: cs.takeWhile isWordPart) :: tokens (cs.dropWhile isWordPart) := by
  obtain ⟨hblank, hmark⟩ := isWordPart_iff.mp h
  rw [tokens, hmark, if_neg Bool.false_ne_true, hblank, if_neg Bool.false_ne_true]

/-- Puts a character before tokens, as a part of the first one if that is a word it runs into. -/
def extend (c : Char) (joined : Bool) : List Token → List Token
  | word w :: ts => if joined then word (c :: w) :: ts else word [c] :: word w :: ts
  | ts => word [c] :: ts

/-- A text begins in the middle of a word if there is a part of a word before it. -/
def beginsInWord (cs : List Char) : Bool := cs.head?.any isWordPart

theorem tokens_cons_eq_extend (h : isWordPart c = true) :
    tokens (c :: cs) = extend c (beginsInWord cs) (tokens cs) := by
  rw [tokens_cons_of_isWordPart cs h]
  cases cs with
  | nil => simp [tokens, extend]
  | cons d ds =>
    cases hd : isWordPart d with
    | true =>
      rw [tokens_cons_of_isWordPart ds hd]
      simp [beginsInWord, extend, hd]
    | false =>
      rw [List.takeWhile_cons_of_neg (by simp [hd]), List.dropWhile_cons_of_neg (by simp [hd])]
      cases hts : tokens (d :: ds) with
      | nil => rfl
      | cons t ts => cases t <;> simp [beginsInWord, extend, hd]

end Cons

/-- Two texts that have the same tokens, also after further characters. -/
def ReadAlike (cs ds : List Char) : Prop :=
  tokens cs = tokens ds ∧ beginsInWord cs = beginsInWord ds

section Alike

variable {c d : Char} {cs ds es : List Char}

theorem ReadAlike.trans (h : ReadAlike cs ds) (h' : ReadAlike ds es) : ReadAlike cs es :=
  ⟨h.1.trans h'.1, h.2.trans h'.2⟩

theorem ReadAlike.cons (h : ReadAlike cs ds) (c : Char) : ReadAlike (c :: cs) (c :: ds) := by
  refine ⟨?_, rfl⟩
  cases hmark : isPunctuation c with
  | true => rw [tokens_cons_of_isPunctuation _ hmark, tokens_cons_of_isPunctuation _ hmark, h.1]
  | false =>
    cases hblank : Text.isBlank c with
    | true => rw [tokens_cons_of_isBlank _ hblank, tokens_cons_of_isBlank _ hblank, h.1]
    | false =>
      have hword := isWordPart_iff.mpr ⟨hblank, hmark⟩
      rw [tokens_cons_eq_extend _ hword, tokens_cons_eq_extend _ hword, h.1, h.2]

theorem beginsInWord_cons_of_isBlank (h : Text.isBlank c = true) :
    beginsInWord (c :: cs) = false := by
  simp [beginsInWord, isWordPart, h]

/-- It does not matter which white space begins a text. -/
theorem ReadAlike.of_isBlank (hc : Text.isBlank c = true) (hd : Text.isBlank d = true) :
    ReadAlike (c :: cs) (d :: cs) := by
  constructor
  · rw [tokens_cons_of_isBlank cs hc, tokens_cons_of_isBlank cs hd]
  · rw [beginsInWord_cons_of_isBlank hc, beginsInWord_cons_of_isBlank hd]

/-- It does not matter how much white space begins a text. -/
theorem ReadAlike.of_isBlank_cons (hc : Text.isBlank c = true) (hd : Text.isBlank d = true) :
    ReadAlike (d :: cs) (c :: d :: cs) := by
  constructor
  · rw [tokens_cons_of_isBlank _ hc]
  · rw [beginsInWord_cons_of_isBlank hc, beginsInWord_cons_of_isBlank hd]

theorem readAlike_append_of_isBlank (hds : ∀ d ∈ ds, Text.isBlank d = true) :
    ReadAlike (cs ++ ds) cs := by
  induction cs with
  | nil =>
    rw [List.nil_append]
    induction ds with
    | nil => exact ⟨rfl, rfl⟩
    | cons d ds ih =>
      obtain ⟨hd, hds⟩ := List.forall_mem_cons.mp hds
      refine ⟨?_, beginsInWord_cons_of_isBlank hd⟩
      rw [tokens_cons_of_isBlank ds hd]
      exact (ih hds).1
  | cons c cs ih => exact ih.cons c

end Alike

theorem tokens_dropWhile_isBlank (cs : List Char) :
    tokens (cs.dropWhile Text.isBlank) = tokens cs := by
  induction cs with
  | nil => rfl
  | cons c cs ih =>
    cases hc : Text.isBlank c with
    | true => rw [List.dropWhile_cons_of_pos hc, ih, tokens_cons_of_isBlank cs hc]
    | false => rw [List.dropWhile_cons_of_neg (by simp [hc])]

theorem tokens_dropWhileEnd_isBlank (cs : List Char) :
    tokens (Text.dropWhileEnd Text.isBlank cs) = tokens cs := by
  have hsplit : Text.dropWhileEnd Text.isBlank cs ++
      (cs.reverse.takeWhile Text.isBlank).reverse = cs := by
    rw [Text.dropWhileEnd, ← List.reverse_append, List.takeWhile_append_dropWhile,
      List.reverse_reverse]
  have hblank : ∀ d ∈ (cs.reverse.takeWhile Text.isBlank).reverse, Text.isBlank d = true := by
    intro d hd
    exact List.mem_takeWhile_imp (List.mem_reverse.mp hd)
  have halike : ReadAlike (Text.dropWhileEnd Text.isBlank cs ++
      (cs.reverse.takeWhile Text.isBlank).reverse) (Text.dropWhileEnd Text.isBlank cs) :=
    readAlike_append_of_isBlank hblank
  rw [hsplit] at halike
  exact halike.1.symm

theorem tokens_trimWhere_isBlank (cs : List Char) :
    tokens (Text.trimWhere Text.isBlank cs) = tokens cs := by
  rw [Text.trimWhere, tokens_dropWhileEnd_isBlank, tokens_dropWhile_isBlank]

theorem readAlike_collapseBlanks (cs : List Char) : ReadAlike (collapseBlanks cs) cs := by
  have hspace : Text.isBlank ' ' = true := by decide
  fun_induction collapseBlanks cs with
  | case1 => exact ⟨rfl, rfl⟩
  | case2 c =>
    split
    · rename_i hc
      exact .of_isBlank hspace hc
    · exact ⟨rfl, rfl⟩
  | case3 c d rest hc hd ih => exact ih.trans (.of_isBlank_cons hc hd)
  | case4 c d rest hc hd ih => exact (ih.cons ' ').trans (.of_isBlank hspace hc)
  | case5 c d rest hc ih => exact ih.cons c

/-- What is removed next to punctuation is a space, and it begins no word after a word. -/
theorem tokens_tighten (afterPunctuation : Bool) (cs : List Char) :
    tokens (tighten afterPunctuation cs) = tokens cs ∧
      (afterPunctuation = false →
        beginsInWord (tighten afterPunctuation cs) = beginsInWord cs) := by
  have hspace : Text.isBlank ' ' = true := by decide
  -- The tokens of a kept word part depend on whether what follows begins in a word; the second
  -- part carries this through the induction.
  fun_induction tighten afterPunctuation cs with
  | case1 => exact ⟨rfl, fun _ => rfl⟩
  | case2 afterPunctuation c rest hremoved ih =>
    obtain ⟨hc, hmark⟩ := (Bool.and_eq_true _ _).mp hremoved
    obtain rfl : c = ' ' := beq_iff_eq.mp hc
    refine ⟨by rw [ih.1, tokens_cons_of_isBlank rest hspace], ?_⟩
    rintro rfl
    rw [ih.2 rfl, beginsInWord_cons_of_isBlank hspace, beginsInWord]
    rw [Bool.false_or] at hmark
    obtain ⟨d, hd, hpunctuation⟩ := (Option.any_eq_true ..).mp hmark
    rw [hd, Option.any_some, isWordPart, hpunctuation, Bool.not_true, Bool.and_false]
  | case3 afterPunctuation c rest hkept ih =>
    refine ⟨?_, fun _ => rfl⟩
    cases hmark : isPunctuation c with
    | true =>
      rw [hmark] at ih
      rw [tokens_cons_of_isPunctuation _ hmark, tokens_cons_of_isPunctuation _ hmark, ih.1]
    | false =>
      rw [hmark] at ih
      exact (ReadAlike.cons ⟨ih.1, ih.2 rfl⟩ c).1

theorem toList_normalizeName (s : String) : (normalizeName s).toList =
    tighten false (collapseBlanks (Text.trimWhere Text.isBlank s.toList)) :=
  String.toList_ofList

theorem tokens_normalizeName (s : String) : tokens (normalizeName s).toList = tokens s.toList := by
  rw [toList_normalizeName, (tokens_tighten _ _).1, (readAlike_collapseBlanks _).1,
    tokens_trimWhere_isBlank]

/-- Texts whose white space is single spaces, each between two characters with a property. -/
inductive IsSpaced (P : Char → Bool) : List Char → Prop
  | nil : IsSpaced P []
  | single {c : Char} (hc : Text.isBlank c = false) : IsSpaced P [c]
  | join {c d : Char} {cs : List Char} (hc : Text.isBlank c = false) (h : IsSpaced P (d :: cs)) :
      IsSpaced P (c :: d :: cs)
  | space {c d : Char} {cs : List Char} (hc : Text.isBlank c = false) (hl : P c = true)
      (hr : P d = true) (h : IsSpaced P (d :: cs)) : IsSpaced P (c :: ' ' :: d :: cs)

theorem IsSpaced.isBlank_head {P : Char → Bool} {c : Char} {cs : List Char}
    (h : IsSpaced P (c :: cs)) : Text.isBlank c = false := by
  cases h <;> assumption

theorem IsSpaced.tail {P : Char → Bool} {c d : Char} {cs : List Char}
    (h : IsSpaced P (c :: d :: cs)) (hd : Text.isBlank d = false) : IsSpaced P (d :: cs) := by
  cases h with
  | join _ h => exact h
  | space => exact absurd hd (by decide)

theorem collapseBlanks_cons {c : Char} (hc : Text.isBlank c = false) (cs : List Char) :
    collapseBlanks (c :: cs) = c :: collapseBlanks cs := by
  cases cs with
  | nil => simp [collapseBlanks, hc]
  | cons d ds => simp [collapseBlanks, hc]

theorem tighten_cons {c : Char} (hc : Text.isBlank c = false) (afterPunctuation : Bool)
    (cs : List Char) :
    tighten afterPunctuation (c :: cs) = c :: tighten (isPunctuation c) cs := by
  have hne : c ≠ ' ' := by
    rintro rfl
    exact absurd hc (by decide)
  simp [tighten, hne]

/-- After a character that is not blank, each run of white space becomes one space, unless the text
ends with it. -/
theorem isSpaced_collapseBlanks {a : Char} (ha : Text.isBlank a = false) {cs : List Char}
    (hlast : ∀ c, cs.getLast? = some c → Text.isBlank c = false) :
    IsSpaced (fun _ => true) (a :: collapseBlanks cs) := by
  fun_induction collapseBlanks cs generalizing a with
  | case1 => exact .single ha
  | case2 c =>
    have hc := hlast c rfl
    rw [hc, if_neg Bool.false_ne_true]
    exact .join ha (.single hc)
  | case3 c d rest hc hd ih => exact ih ha (by simpa using hlast)
  | case4 c d rest hc hd ih =>
    have hd : Text.isBlank d = false := by simpa using hd
    have h := ih hd (by simpa using hlast)
    rw [collapseBlanks_cons hd] at h ⊢
    exact .space ha rfl rfl (h.tail hd)
  | case5 c d rest hc ih => exact .join ha (ih (by simpa using hc) (by simpa using hlast))

theorem isSpaced_tighten {cs : List Char} (h : IsSpaced (fun _ => true) cs)
    (afterPunctuation : Bool) : IsSpaced isWordPart (tighten afterPunctuation cs) := by
  induction h generalizing afterPunctuation with
  | nil => exact .nil
  | single hc =>
    rw [tighten_cons hc]
    exact .single hc
  | @join c d cs hc h ih =>
    have ih := ih (isPunctuation c)
    rw [tighten_cons h.isBlank_head] at ih
    rw [tighten_cons hc, tighten_cons h.isBlank_head]
    exact .join hc ih
  | @space c d cs hc _ _ h ih =>
    have hd := h.isBlank_head
    rw [tighten_cons hc, tighten]
    split
    · have ih := ih (isPunctuation c)
      rw [tighten_cons hd] at ih ⊢
      exact .join hc ih
    -- A blank is kept only between two word parts, where the spaced form has one.
    · rename_i hkept
      have ih := ih (isPunctuation ' ')
      rw [tighten_cons hd] at ih ⊢
      obtain ⟨hl, hr⟩ : isPunctuation c = false ∧ isPunctuation d = false := by simpa using hkept
      exact .space hc (isWordPart_iff.mpr ⟨hc, hl⟩) (isWordPart_iff.mpr ⟨hd, hr⟩) ih

theorem trimWhere_ends (p : Char → Bool) (cs : List Char) :
    (∀ c, (Text.trimWhere p cs).head? = some c → p c = false) ∧
      ∀ c, (Text.trimWhere p cs).getLast? = some c → p c = false := by
  constructor
  · intro c hc
    have hprefix : Text.trimWhere p cs <+: cs.dropWhile p := List.rdropWhile_prefix p _
    obtain ⟨rest, hrest⟩ := hprefix
    have hhead := List.head?_dropWhile_not p cs
    rw [← hrest, List.head?_append, hc] at hhead
    simpa using hhead
  · intro c hc
    rw [Text.trimWhere, Text.dropWhileEnd, List.getLast?_reverse] at hc
    have hhead := List.head?_dropWhile_not p (cs.dropWhile p).reverse
    rw [hc] at hhead
    simpa using hhead

/-- In a canonical form, white space is single spaces between words. -/
theorem isSpaced_normalizeName (s : String) : IsSpaced isWordPart (normalizeName s).toList := by
  obtain ⟨hhead, hlast⟩ := trimWhere_ends Text.isBlank s.toList
  rw [toList_normalizeName]
  apply isSpaced_tighten
  cases h : Text.trimWhere Text.isBlank s.toList with
  | nil => exact .nil
  | cons c cs =>
    rw [h] at hhead hlast
    have hc := hhead c rfl
    rw [collapseBlanks_cons hc]
    refine isSpaced_collapseBlanks hc fun d hd => hlast d ?_
    rw [List.getLast?_cons, hd, Option.getD_some]

theorem spell_mark (c : Char) (ts : List Token) : spell (mark c :: ts) = c :: spell ts := by
  cases ts <;> simp [spell, gap, text]

theorem spell_word_cons (c : Char) (w : List Char) (ts : List Token) :
    spell (word (c :: w) :: ts) = c :: spell (word w :: ts) := by
  cases ts with
  | nil => rfl
  | cons t ts => cases t <;> simp [spell, gap, text]

theorem isPunctuation_of_isWordPart_eq_false {c : Char} (hc : Text.isBlank c = false)
    (h : isWordPart c = false) : isPunctuation c = true := by
  simpa [isWordPart, hc] using h

theorem spell_tokens {cs : List Char} (h : IsSpaced isWordPart cs) : spell (tokens cs) = cs := by
  induction h with
  | nil => simp [tokens, spell]
  | @single c hc =>
    cases hword : isWordPart c with
    | true =>
      rw [tokens_cons_of_isWordPart [] hword]
      simp [tokens, spell, text]
    | false =>
      rw [tokens_cons_of_isPunctuation [] (isPunctuation_of_isWordPart_eq_false hc hword)]
      simp [tokens, spell, text]
  | @join c d cs hc h ih =>
    cases hword : isWordPart c with
    | false =>
      have hmark := isPunctuation_of_isWordPart_eq_false hc hword
      rw [tokens_cons_of_isPunctuation _ hmark, spell_mark, ih]
    | true =>
      rw [tokens_cons_eq_extend _ hword]
      cases hnext : isWordPart d with
      | true =>
        rw [tokens_cons_of_isWordPart _ hnext] at ih ⊢
        rw [beginsInWord, List.head?_cons, Option.any_some, hnext, extend, if_pos rfl,
          spell_word_cons, ih]
      | false =>
        have hmark := isPunctuation_of_isWordPart_eq_false h.isBlank_head hnext
        rw [tokens_cons_of_isPunctuation _ hmark] at ih ⊢
        rw [extend, spell, ih]
        · rfl
        · nofun
  | @space c d cs hc hl hr h ih =>
    rw [tokens_cons_eq_extend _ hl, tokens_cons_of_isBlank _ (by decide)]
    rw [tokens_cons_of_isWordPart _ hr] at ih ⊢
    rw [beginsInWord_cons_of_isBlank (by decide), extend, if_neg Bool.false_ne_true, spell, ih]
    rfl

theorem normalizeName_eq_spell (s : String) :
    normalizeName s = .ofList (spell (tokens s.toList)) := by
  rw [← tokens_normalizeName, spell_tokens (isSpaced_normalizeName s), String.ofList_toList]

theorem normalizeName_eq_iff {s t : String} :
    normalizeName s = normalizeName t ↔ tokens s.toList = tokens t.toList := by
  constructor
  · intro h
    rw [← tokens_normalizeName s, h, tokens_normalizeName]
  · intro h
    rw [normalizeName_eq_spell, h, ← normalizeName_eq_spell]

/-- A name is normalised by spelling its tokens. Names have one canonical form exactly if they have
the same tokens, a canonical form is its own, and no signature depends on how types are spaced. -/
theorem normalizeName_spells (s t : String) :
    normalizeName s = .ofList (spell (tokens s.toList)) ∧
      (normalizeName s = normalizeName t ↔ tokens s.toList = tokens t.toList) ∧
      normalizeName (normalizeName s) = normalizeName s ∧
      ∀ (types types' : List String) (digits : ℤ),
        types.map (tokens ·.toList) = types'.map (tokens ·.toList) →
          signature types digits = signature types' digits := by
  refine ⟨normalizeName_eq_spell s, normalizeName_eq_iff, ?idempotent, ?spacing⟩
  case idempotent =>
    rw [normalizeName_eq_iff]
    exact tokens_normalizeName s
  case spacing =>
    intro types types' digits h
    have hspelled := congrArg (List.map fun ts => String.ofList (spell ts)) h
    have hnormal : types.map normalizeName = types'.map normalizeName := by
      simpa only [List.map_map, Function.comp_def, ← normalizeName_eq_spell] using hspelled
    rw [signature, signature, signatureText, signatureText, hnormal]

/-- Punctuation in a row, and white space of several kinds in and around it. -/
def sampleSpaced : String := "  Map < K ,\tList< ?  extends\nV >  [ ]> "

def sampleTight : String := "Map<K,List<?\u3000extends V>[]>"

theorem sampleSpaced_spells : normalizeName sampleSpaced = "Map<K,List<? extends V>[]>" ∧
    tokens sampleSpaced.toList = tokens sampleTight.toList ∧
    ∀ digits : ℤ,
      signature [sampleSpaced, "int"] digits = signature [sampleTight, "int "] digits := by
  have hform : normalizeName sampleSpaced = normalizeName sampleTight := by decide +kernel
  have hint : normalizeName "int" = normalizeName "int " := by decide +kernel
  obtain ⟨-, hiff, -, hsignature⟩ := normalizeName_spells sampleSpaced sampleTight
  obtain ⟨-, hiff', -⟩ := normalizeName_spells "int" "int "
  refine ⟨by decide +kernel, hiff.mp hform, fun digits => hsignature _ _ digits ?_⟩
  simp only [List.map_cons, List.map_nil, hiff.mp hform, hiff'.mp hint]

end CodeAtlas.Uri
