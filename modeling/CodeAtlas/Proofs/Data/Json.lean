import Mathlib.Data.Int.Notation
import CodeAtlas.Proofs.Data.Numeral
import CodeAtlas.Proofs.Exchange.Entries
import CodeAtlas.Proofs.Text.Lines

/-! # Reading printed values

A value made of texts, numbers, truth values, lists and records is printed on one line, and that
line is read as the value.
-/

namespace CodeAtlas.Json

section Strings

variable {cs s rest : List Char} (h : readString cs = .ok (s, rest))

include h

theorem readString_simpleEscape {c e : Char} (hc : c ≠ 'u') (he : simpleEscape? c = some e) :
    readString ('\\' :: c :: cs) = .ok (e :: s, rest) := by
  simp [readString, hc, he, h]

theorem readString_hexEscape {a b c d : Char} {u : ℕ} (hu : codeUnit? a b c d = some u)
    (hlow : u < 0x20) : readString ('\\' :: 'u' :: a :: b :: c :: d :: cs) =
      .ok (.ofNat u :: s, rest) := by
  have hhigh : isHigh u = false := by
    simp [isHigh]
    omega
  have hchar : unitChar u = .ofNat u := by
    rw [unitChar, if_neg (by simp; omega)]
  have hcs : cs ≠ [] := by
    rintro rfl
    simp [readString] at h
  -- What follows the escape might be a second one, which is then read by itself.
  by_cases hsecond : ∃ e f g h next tail, cs = '\\' :: 'u' :: e :: f :: g :: h :: next :: tail
  · obtain ⟨e, f, g, h', next, tail, rfl⟩ := hsecond
    simp [readString, hu, hhigh, hchar, h]
  · obtain ⟨next, tail, rfl⟩ := List.exists_cons_of_ne_nil hcs
    have hnot : ∀ e f g h next' tail', next = '\\' →
        tail = 'u' :: e :: f :: g :: h :: next' :: tail' → False := by
      rintro e f g h' next' tail' rfl rfl
      exact hsecond ⟨e, f, g, h', next', tail', rfl⟩
    rw [readString, hu]
    · simp [hchar, h]
    · exact hnot

theorem readString_plain {c : Char} (hquote : c ≠ '"') (hslash : c ≠ '\\')
    (hc : ¬ c.toNat < 0x20) : readString (c :: cs) = .ok (c :: s, rest) := by
  rw [readString.eq_def]
  split <;> simp_all

theorem readString_escape (c : Char) :
    readString (escape false c ++ cs) = .ok (c :: s, rest) := by
  unfold escape
  dsimp only
  split
  · next hc =>
    rw [Bool.or_eq_true, beq_iff_eq, beq_iff_eq] at hc
    rcases hc with rfl | rfl
    · exact readString_simpleEscape h (by decide) rfl
    · exact readString_simpleEscape h (by decide) rfl
  split
  · next hc => exact beq_iff_eq.mp hc ▸ readString_simpleEscape h (by decide) rfl
  split
  · next hc => exact beq_iff_eq.mp hc ▸ readString_simpleEscape h (by decide) rfl
  split
  · next hc => exact beq_iff_eq.mp hc ▸ readString_simpleEscape h (by decide) rfl
  split
  · next hc =>
    have hchar : c = '\x08' := by rw [← Char.ofNat_toNat c, hc]
    exact hchar ▸ readString_simpleEscape h (by decide) rfl
  split
  · next hc =>
    have hchar : c = '\x0c' := by rw [← Char.ofNat_toNat c, hc]
    exact hchar ▸ readString_simpleEscape h (by decide) rfl
  split
  · next hc =>
    have hdigits : ∀ n < 0x20, ∃ x y, Text.hexDigits 4 n = ['0', '0', x, y] ∧
        codeUnit? '0' '0' x y = some n := fun n hn => by
      refine ⟨Nat.digitChar (n / 16 % 16), Nat.digitChar (n % 16), ?_⟩
      revert n
      decide
    obtain ⟨x, y, htext, hunit⟩ := hdigits c.toNat hc
    rw [hexEscape, htext]
    simpa using readString_hexEscape h hunit hc
  split
  · next hc => simp at hc
  · next hc _ _ _ _ _ hlow _ =>
    rw [Bool.or_eq_true, beq_iff_eq, beq_iff_eq, not_or] at hc
    exact readString_plain h hc.1 hc.2 hlow

end Strings

theorem readString_flatMap_escape (s rest : List Char) :
    readString (s.flatMap (escape false) ++ '"' :: rest) = .ok (s, rest) := by
  induction s with
  | nil => rfl
  | cons c s ih =>
    rw [List.flatMap_cons, List.append_assoc]
    exact readString_escape ih c

theorem toList_string (s : String) :
    (string false s).toList = '"' :: (s.toList.flatMap (escape false) ++ ['"']) := by
  simp [string]

/-- A value without sets and pairs, whose mappings have different texts as keys, whose integers have
a limited number of digits and whose other numbers can be read. -/
inductive IsPlain (limit : Option ℕ) : Value → Prop
  | null : IsPlain limit .null
  | bool (b : Bool) : IsPlain limit (.bool b)
  | int {n : ℤ} (h : Fits limit n.natAbs) : IsPlain limit (.int n)
  | float {x : Binary64} (h : IsReadable x) : IsPlain limit (.float x)
  | text (s : String) : IsPlain limit (.text s)
  | list {items : List Value} (h : ∀ v ∈ items, IsPlain limit v) : IsPlain limit (.list items)
  | record {fields : List (String × Value)} (hkeys : (fields.map (·.1)).Nodup)
      (h : ∀ f ∈ fields, IsPlain limit f.2) : IsPlain limit (.ofFields fields)

def lineText (depth : ℕ) (v : Value) : List Char := (render .line depth v).toList

def entryText (depth : ℕ) (f : String × Value) : List Char :=
  '"' :: (f.1.toList.flatMap (escape false) ++ '"' :: ':' :: ' ' :: lineText depth f.2)

def joined (parts : List (List Char)) : List Char := [',', ' '].intercalate parts

section Texts

variable (depth : ℕ)

theorem lineText_scalar (s : Scalar) : lineText depth (.scalar s) = (scalar false s).toList := by
  rw [lineText, render]
  rfl

theorem lineText_int (n : ℤ) : lineText depth (.int n) = (toString n).toList :=
  lineText_scalar depth (.int n)

theorem lineText_float (x : Binary64) :
    lineText depth (.float x) = (Binary64.FloatFormat.data.render x).toList :=
  lineText_scalar depth (.float x)

theorem lineText_text (s : String) :
    lineText depth (.text s) = '"' :: (s.toList.flatMap (escape false) ++ ['"']) := by
  rw [Value.text, lineText_scalar, scalar, toList_string]

theorem toList_enclose (opening closing : String) (parts : List String) :
    (Layout.line.enclose depth opening closing parts).toList =
      opening.toList ++ (joined (parts.map String.toList) ++ closing.toList) := by
  cases parts with
  | nil => simp [Layout.enclose, joined]
  | cons part parts =>
    simp [Layout.enclose, Layout.line, Layout.break, Layout.comma, joined,
      String.toList_intercalate]

theorem renderItems_eq (l : Layout) (items : List Value) :
    renderItems l depth items = items.map (render l depth) := by
  induction items with
  | nil => rw [renderItems, List.map_nil]
  | cons v items ih => rw [renderItems, List.map_cons, ih]

theorem lineText_list (items : List Value) : lineText depth (.list items) =
    '[' :: (joined (items.map (lineText (depth + 1))) ++ [']']) := by
  rw [lineText, render, renderItems_eq, toList_enclose, List.map_map]
  rfl

theorem renderEntries_eq (l : Layout) (fields : List (String × Value)) :
    renderEntries l depth (fields.map fun (k, v) => (.text k, v)) =
      fields.map fun f => (f.1, render l depth f.2) := by
  induction fields with
  | nil => rw [List.map_nil, renderEntries, List.map_nil]
  | cons f fields ih => rw [List.map_cons, renderEntries, List.map_cons, ih, keyText]

theorem lineText_ofFields (fields : List (String × Value)) :
    lineText depth (.ofFields fields) =
      '\x7b' :: (joined (fields.map (entryText (depth + 1))) ++ ['\x7d']) := by
  have hentry (f : String × Value) :
      (string false f.1 ++ ": " ++ render .line (depth + 1) f.2).toList =
        entryText (depth + 1) f := by
    simp [toList_string, entryText, lineText]
  have hentries : (((fields.map fun f => (f.1, render .line (depth + 1) f.2)).map
      fun x => string false x.1 ++ ": " ++ x.2).map String.toList) =
        fields.map (entryText (depth + 1)) := by
    rw [List.map_map, List.map_map]
    exact List.map_congr_left fun f _ => hentry f
  rw [lineText, Value.ofFields, render, renderEntries_eq, toList_enclose]
  exact congrArg (fun parts => '\x7b' :: (joined parts ++ ['\x7d'])) hentries

end Texts

structure OpensValue (c : Char) : Prop where
  isSpace_eq : isSpace c = false
  ne_bracket : c ≠ ']'
  ne_brace : c ≠ '\x7d'
  ne_mark : c ≠ '\ufeff'

theorem opensValue_of_isDigit {c : Char} (hc : c.isDigit = true) : OpensValue c := by
  have hapart : c ≠ ' ' ∧ c ≠ '\t' ∧ c ≠ '\n' ∧ c ≠ '\r' ∧ c ≠ ']' ∧ c ≠ '\x7d' ∧
      c ≠ '\ufeff' := by
    refine ⟨?_, ?_, ?_, ?_, ?_, ?_, ?_⟩ <;> (rintro rfl; revert hc; decide)
  obtain ⟨hs, ht, hn, hr, hbracket, hbrace, hmark⟩ := hapart
  exact ⟨by simp [isSpace, hs, ht, hn, hr], hbracket, hbrace, hmark⟩

theorem opensValue_of_isNumeral {c : Char} (hc : IsNumeral c) : OpensValue c := by
  rcases hc with hc | hc
  · exact opensValue_of_isDigit hc
  · have hall : ("+-.eInfityNa".toList.all fun c =>
        !isSpace c && c != ']' && c != '\x7d' && c != '\ufeff') = true := by decide
    obtain ⟨⟨⟨hs, hbracket⟩, hbrace⟩, hmark⟩ := by simpa using List.all_eq_true.mp hall c hc
    exact ⟨hs, hbracket, hbrace, hmark⟩

/-- The text of a number that is no integer begins like one. -/
theorem exists_toList_render {x : Binary64} (hx : IsReadable x) :
    ∃ c cs, (Binary64.FloatFormat.data.render x).toList = c :: cs ∧ IsNumeral c := by
  obtain ⟨c, cs, hc⟩ := List.exists_cons_of_ne_nil (toList_render_ne_nil hx)
  exact ⟨c, cs, hc, isNumeral_of_mem_render x c (hc ▸ List.mem_cons_self)⟩

theorem IsPlain.exists_opensValue {limit : Option ℕ} {v : Value} (h : IsPlain limit v)
    (depth : ℕ) : ∃ c cs, lineText depth v = c :: cs ∧ OpensValue c := by
  have hopens {c : Char} (hc : c ∈ ['n', 't', 'f', '-', '"', '[', '\x7b']) : OpensValue c := by
    have hall : ∀ c ∈ ['n', 't', 'f', '-', '"', '[', '\x7b'],
        isSpace c = false ∧ c ≠ ']' ∧ c ≠ '\x7d' ∧ c ≠ '\ufeff' := by simp [isSpace]
    obtain ⟨hs, hbracket, hbrace, hmark⟩ := hall c hc
    exact ⟨hs, hbracket, hbrace, hmark⟩
  cases h with
  | null => exact ⟨'n', ['u', 'l', 'l'], lineText_scalar depth .null, hopens (by simp)⟩
  | bool b =>
    cases b with
    | false =>
      exact ⟨'f', ['a', 'l', 's', 'e'], lineText_scalar depth (.bool false), hopens (by simp)⟩
    | true =>
      exact ⟨'t', ['r', 'u', 'e'], lineText_scalar depth (.bool true), hopens (by simp)⟩
  | @int n =>
    obtain ⟨c, cs, hc, hfirst⟩ := exists_toList_toString n
    refine ⟨c, cs, (lineText_int depth n).trans hc, ?_⟩
    rcases hfirst with rfl | hdigit
    · exact hopens (by simp)
    · exact opensValue_of_isDigit hdigit
  | @float x hx =>
    obtain ⟨c, cs, hc, hfirst⟩ := exists_toList_render hx
    exact ⟨c, cs, (lineText_float depth x).trans hc, opensValue_of_isNumeral hfirst⟩
  | text s => exact ⟨'"', _, lineText_text depth s, hopens (by simp)⟩
  | @list items => exact ⟨'[', _, lineText_list depth items, hopens (by simp)⟩
  | @record fields => exact ⟨'\x7b', _, lineText_ofFields depth fields, hopens (by simp)⟩

theorem skipSpace_cons {c : Char} (hc : isSpace c = false) (cs : List Char) :
    skipSpace (c :: cs) = c :: cs := by
  rw [skipSpace, List.dropWhile_cons_of_neg (by simp [hc])]

theorem skipSpace_space (cs : List Char) : skipSpace (' ' :: cs) = skipSpace cs := by
  rw [skipSpace, List.dropWhile_cons_of_pos (by decide), ← skipSpace]

/-- The text of a value is read as the value wherever it stands, given fuel for its length. -/
def ReadsBack (limit : Option ℕ) (v : Value) : Prop :=
  ∀ depth rest fuel, EndsNumber rest → 2 * (lineText depth v).length ≤ fuel →
    readValue limit fuel (lineText depth v ++ rest) = .ok (v, rest)

theorem endsNumber_cons {c : Char} (hc : c ∈ [',', ']', '\x7d']) (rest : List Char) :
    EndsNumber (c :: rest) := by
  have hall : ∀ c ∈ [',', ']', '\x7d'],
      c.isDigit = false ∧ c ≠ '.' ∧ c ≠ 'e' ∧ c ≠ 'E' := by simp
  intro d hd
  obtain rfl : c = d := by simpa using hd
  exact hall c hc

theorem joined_cons (part : List Char) {parts : List (List Char)} (hparts : parts ≠ []) :
    joined (part :: parts) = part ++ ',' :: ' ' :: joined parts := by
  obtain ⟨next, tail, rfl⟩ := List.exists_cons_of_ne_nil hparts
  rw [joined, List.intercalate_cons_cons, ← joined]
  simp

theorem exists_joined_cons (c : Char) (cs : List Char) (parts : List (List Char)) :
    ∃ tail, joined ((c :: cs) :: parts) = c :: tail := by
  cases parts with
  | nil => exact ⟨cs, by simp [joined]⟩
  | cons next tail => exact ⟨_, joined_cons (c :: cs) (by simp)⟩

section Composite

variable {limit : Option ℕ} {fuel : ℕ} {cs rest tail : List Char} {v : Value}

theorem readItems_last (hv : readValue limit fuel cs = .ok (v, ']' :: rest)) :
    readItems limit (fuel + 1) cs = .ok ([v], rest) := by
  rw [readItems, hv]
  rfl

theorem readItems_more {vs : List Value}
    (hv : readValue limit fuel cs = .ok (v, ',' :: ' ' :: tail)) (htail : skipSpace tail = tail)
    (hvs : readItems limit fuel tail = .ok (vs, rest)) :
    readItems limit (fuel + 1) cs = .ok (v :: vs, rest) := by
  have hcomma : skipSpace (',' :: ' ' :: tail) = ',' :: ' ' :: tail := skipSpace_cons rfl _
  rw [readItems, hv]
  simp only [bind, Except.bind, hcomma, skipSpace_space, htail, hvs]
  rfl

theorem readItems_joined {vs : List Value} (hplain : ∀ w ∈ v :: vs, IsPlain limit w)
    (hread : ∀ w ∈ v :: vs, ReadsBack limit w) (depth : ℕ) (rest : List Char)
    (hfuel : 2 * (joined ((v :: vs).map (lineText depth))).length + 1 ≤ fuel) :
    readItems limit fuel (joined ((v :: vs).map (lineText depth)) ++ ']' :: rest) =
      .ok (v :: vs, rest) := by
  obtain ⟨fuel, rfl⟩ : ∃ n, fuel = n + 1 := ⟨fuel - 1, by omega⟩
  -- Each further item costs one unit of fuel, and its text is longer than that.
  induction vs generalizing v fuel with
  | nil =>
    have hjoined : joined ([v].map (lineText depth)) = lineText depth v := by simp [joined]
    rw [hjoined] at hfuel ⊢
    exact readItems_last (hread v (by simp) depth _ fuel (endsNumber_cons (by simp) _) (by omega))
  | cons w vs ih =>
    have hjoined : joined ((v :: w :: vs).map (lineText depth)) =
        lineText depth v ++ ',' :: ' ' :: joined ((w :: vs).map (lineText depth)) :=
      joined_cons _ (by simp)
    rw [hjoined] at hfuel ⊢
    simp only [List.length_append, List.length_cons] at hfuel
    obtain ⟨fuel, rfl⟩ : ∃ n, fuel = n + 1 := ⟨fuel - 1, by omega⟩
    rw [List.append_assoc]
    refine readItems_more (hread v (by simp) depth _ _ (endsNumber_cons (by simp) _) (by omega))
      ?_ (ih (fun u hu => hplain u (List.mem_cons_of_mem _ hu))
        (fun u hu => hread u (List.mem_cons_of_mem _ hu)) fuel (by omega))
    obtain ⟨c, cs, hc, hopens⟩ := (hplain w (by simp)).exists_opensValue depth
    obtain ⟨tail, htail⟩ := exists_joined_cons c cs (vs.map (lineText depth))
    rw [List.map_cons, hc, htail]
    exact skipSpace_cons hopens.isSpace_eq _

theorem insert_texts {before : List (String × Value)} {key : String}
    (hkey : key ∉ before.map (·.1)) (v : Value) :
    Value.insert (before.map fun (k, w) => (.text k, w)) (.text key) v =
      (before ++ [(key, v)]).map fun (k, w) => (.text k, w) := by
  induction before with
  | nil => rfl
  | cons f before ih =>
    rw [List.map_cons, List.mem_cons, not_or] at hkey
    have hne : (f.1 == key) = false := beq_false_of_ne (Ne.symm hkey.1)
    rw [List.map_cons, Value.insert, same_text, hne, ih hkey.2]
    rfl

section Entry

variable {before : List (String × Value)} {key : String} (hkey : key ∉ before.map (·.1))

include hkey

theorem readEntries_last (hcs : skipSpace cs = cs)
    (hv : readValue limit fuel cs = .ok (v, '\x7d' :: rest)) :
    readEntries limit (fuel + 1) (before.map fun (k, w) => (.text k, w))
        ('"' :: (key.toList.flatMap (escape false) ++ '"' :: ':' :: ' ' :: cs)) =
      .ok (.ofFields (before ++ [(key, v)]), rest) := by
  have hcolon : skipSpace (':' :: ' ' :: cs) = ':' :: ' ' :: cs := skipSpace_cons rfl _
  have hbrace : skipSpace ('\x7d' :: rest) = '\x7d' :: rest := skipSpace_cons rfl _
  rw [readEntries, readString_flatMap_escape]
  simp only [bind, Except.bind, hcolon, skipSpace_space, hcs, hv, hbrace, String.ofList_toList,
    insert_texts hkey]
  rfl

theorem readEntries_more {r : Value × List Char} (hcs : skipSpace cs = cs)
    (hv : readValue limit fuel cs = .ok (v, ',' :: ' ' :: tail)) (htail : skipSpace tail = tail)
    (hmore : readEntries limit fuel ((before ++ [(key, v)]).map fun (k, w) => (.text k, w)) tail =
      .ok r) :
    readEntries limit (fuel + 1) (before.map fun (k, w) => (.text k, w))
        ('"' :: (key.toList.flatMap (escape false) ++ '"' :: ':' :: ' ' :: cs)) = .ok r := by
  have hcolon : skipSpace (':' :: ' ' :: cs) = ':' :: ' ' :: cs := skipSpace_cons rfl _
  have hcomma : skipSpace (',' :: ' ' :: tail) = ',' :: ' ' :: tail := skipSpace_cons rfl _
  rw [readEntries, readString_flatMap_escape]
  simp only [bind, Except.bind, hcolon, skipSpace_space, hcs, hv, hcomma, htail,
    String.ofList_toList, insert_texts hkey]
  exact hmore

end Entry

theorem readEntries_joined (before : List (String × Value)) {f : String × Value}
    {fields : List (String × Value)} (hkeys : ((before ++ f :: fields).map (·.1)).Nodup)
    (hplain : ∀ g ∈ f :: fields, IsPlain limit g.2)
    (hread : ∀ g ∈ f :: fields, ReadsBack limit g.2) (depth : ℕ) (rest : List Char)
    (hfuel : 2 * (joined ((f :: fields).map (entryText depth))).length + 1 ≤ fuel) :
    readEntries limit fuel (before.map fun (k, w) => (.text k, w))
        (joined ((f :: fields).map (entryText depth)) ++ '\x7d' :: rest) =
      .ok (.ofFields (before ++ f :: fields), rest) := by
  obtain ⟨fuel, rfl⟩ : ∃ n, fuel = n + 1 := ⟨fuel - 1, by omega⟩
  have hentry (g : String × Value) (hg : g ∈ f :: fields) (after : List Char) :
      skipSpace (lineText depth g.2 ++ after) = lineText depth g.2 ++ after := by
    obtain ⟨c, cs, hc, hopens⟩ := (hplain g hg).exists_opensValue depth
    rw [hc]
    exact skipSpace_cons hopens.isSpace_eq _
  have hfresh : f.1 ∉ before.map (·.1) := by
    rw [List.map_append, List.nodup_append] at hkeys
    exact fun h => hkeys.2.2 _ h _ (by simp) rfl
  -- The entries read so far move from `fields` to `before`, so both stay general.
  induction fields generalizing f before fuel with
  | nil =>
    have hjoined : joined ([f].map (entryText depth)) = entryText depth f := by simp [joined]
    rw [hjoined] at hfuel ⊢
    simp only [entryText, List.cons_append, List.append_assoc, List.length_cons,
      List.length_append] at hfuel ⊢
    exact readEntries_last hfresh (hentry f (by simp) _)
      (hread f (by simp) depth _ fuel (endsNumber_cons (by simp) _) (by omega))
  | cons g fields ih =>
    have hjoined : joined ((f :: g :: fields).map (entryText depth)) =
        entryText depth f ++ ',' :: ' ' :: joined ((g :: fields).map (entryText depth)) :=
      joined_cons _ (by simp)
    have hsplit : before ++ f :: g :: fields = (before ++ [f]) ++ g :: fields := by simp
    rw [hjoined] at hfuel ⊢
    simp only [entryText, List.cons_append, List.append_assoc, List.length_cons,
      List.length_append] at hfuel ⊢
    obtain ⟨fuel, rfl⟩ : ∃ n, fuel = n + 1 := ⟨fuel - 1, by omega⟩
    have hmore := ih (before ++ [f]) (hsplit ▸ hkeys)
      (fun e he => hplain e (List.mem_cons_of_mem _ he))
      (fun e he => hread e (List.mem_cons_of_mem _ he)) fuel (by omega)
      (fun e he => hentry e (List.mem_cons_of_mem _ he)) ?_
    · rw [← hsplit] at hmore
      refine readEntries_more hfresh (hentry f (by simp) _)
        (hread f (by simp) depth _ _ (endsNumber_cons (by simp) _) (by omega)) ?_ hmore
      obtain ⟨tail, htail⟩ := exists_joined_cons '"' _ (fields.map (entryText depth))
      rw [List.map_cons, entryText, htail]
      exact skipSpace_cons rfl _
    · rw [hsplit, List.map_append, List.nodup_append] at hkeys
      exact fun h => hkeys.2.2 _ h _ (by simp) rfl

end Composite

section Start

variable {limit : Option ℕ} {fuel : ℕ} {c : Char} {cs rest : List Char}

theorem readValue_of_readScalar {s : Scalar} (hopen : c ≠ '"' ∧ c ≠ '[' ∧ c ≠ '\x7b')
    (h : readScalar limit (c :: cs) = .ok (s, rest)) :
    readValue limit (fuel + 1) (c :: cs) = .ok (.scalar s, rest) := by
  rw [readValue]
  · rw [h]
    rfl
  all_goals
    intro tail htail
    obtain ⟨rfl, -⟩ := List.cons.inj htail
    simp at hopen

theorem readValue_list {items : List Value} (hc : OpensValue c)
    (h : readItems limit fuel (c :: cs) = .ok (items, rest)) :
    readValue limit (fuel + 1) ('[' :: c :: cs) = .ok (.list items, rest) := by
  have hbracket := hc.ne_bracket
  rw [readValue, skipSpace_cons hc.isSpace_eq]
  split
  · next heq => exact absurd (List.cons.inj heq).1 hbracket
  · rw [h]
    rfl

theorem readValue_record {r : Except Fault (Value × List Char)}
    (h : readEntries limit fuel [] ('"' :: cs) = r) :
    readValue limit (fuel + 1) ('\x7b' :: '"' :: cs) = r := by
  have hskip : skipSpace ('"' :: cs) = '"' :: cs := skipSpace_cons rfl _
  rw [readValue, hskip]
  exact h

end Start

theorem readsBack_of_succ {limit : Option ℕ} {v : Value} (h : IsPlain limit v)
    (hread : ∀ depth rest fuel, EndsNumber rest → 2 * (lineText depth v).length ≤ fuel + 1 →
      readValue limit (fuel + 1) (lineText depth v ++ rest) = .ok (v, rest)) :
    ReadsBack limit v := by
  intro depth rest fuel hrest hfuel
  obtain ⟨c, cs, hc, -⟩ := h.exists_opensValue depth
  obtain ⟨fuel, rfl⟩ : ∃ n, fuel = n + 1 := by
    rw [hc, List.length_cons] at hfuel
    exact ⟨fuel - 1, by omega⟩
  exact hread depth rest fuel hrest hfuel

section ReadsBack

variable {limit : Option ℕ}

theorem readsBack_int {n : ℤ} (hn : Fits limit n.natAbs) : ReadsBack limit (.int n) := by
  refine readsBack_of_succ (.int hn) fun depth rest fuel hrest _ => ?_
  have hscalar := readScalar_toString hn hrest
  obtain ⟨c, cs, hc, hfirst⟩ := exists_toList_toString n
  rw [hc, List.cons_append] at hscalar
  rw [lineText_int, hc, List.cons_append]
  refine readValue_of_readScalar ?_ hscalar
  rcases hfirst with rfl | hdigit
  · decide
  · refine ⟨?_, ?_, ?_⟩ <;> (rintro rfl; revert hdigit; decide)

theorem readsBack_float {x : Binary64} (hx : IsReadable x) : ReadsBack limit (.float x) := by
  refine readsBack_of_succ (.float hx) fun depth rest fuel hrest _ => ?_
  have hscalar := readScalar_render hx limit hrest
  obtain ⟨c, cs, hc, hfirst⟩ := exists_toList_render hx
  rw [hc, List.cons_append] at hscalar
  rw [lineText_float, hc, List.cons_append]
  refine readValue_of_readScalar ?_ hscalar
  rcases hfirst with hdigit | hmark
  · refine ⟨?_, ?_, ?_⟩ <;> (rintro rfl; revert hdigit; decide)
  · refine ⟨?_, ?_, ?_⟩ <;> (rintro rfl; revert hmark; decide)

theorem readsBack_text (s : String) : ReadsBack limit (.text s) := by
  refine readsBack_of_succ (.text s) fun depth rest fuel _ _ => ?_
  rw [lineText_text, List.cons_append, readValue, List.append_assoc, List.singleton_append,
    readString_flatMap_escape]
  simp only [bind, Except.bind, String.ofList_toList]
  rfl

theorem readsBack_list {items : List Value} (hplain : ∀ v ∈ items, IsPlain limit v)
    (hread : ∀ v ∈ items, ReadsBack limit v) : ReadsBack limit (.list items) := by
  refine readsBack_of_succ (.list hplain) fun depth rest fuel _ hfuel => ?_
  rw [lineText_list] at hfuel ⊢
  cases items with
  | nil => rfl
  | cons v vs =>
    have hfuel' : 2 * (joined ((v :: vs).map (lineText (depth + 1)))).length + 1 ≤ fuel := by
      simp only [List.length_cons, List.length_append] at hfuel
      omega
    have hitems := readItems_joined hplain hread (depth + 1) rest hfuel'
    obtain ⟨c, cs, hc, hopens⟩ := (hplain v (by simp)).exists_opensValue (depth + 1)
    obtain ⟨tail, htail⟩ := exists_joined_cons c cs (vs.map (lineText (depth + 1)))
    rw [← hc, ← List.map_cons] at htail
    rw [htail] at hitems ⊢
    simpa using readValue_list hopens hitems

theorem readsBack_record {fields : List (String × Value)} (hkeys : (fields.map (·.1)).Nodup)
    (hplain : ∀ f ∈ fields, IsPlain limit f.2) (hread : ∀ f ∈ fields, ReadsBack limit f.2) :
    ReadsBack limit (.ofFields fields) := by
  refine readsBack_of_succ (.record hkeys hplain) fun depth rest fuel _ hfuel => ?_
  rw [lineText_ofFields] at hfuel ⊢
  cases fields with
  | nil => rfl
  | cons f fields =>
    have hfuel' : 2 * (joined ((f :: fields).map (entryText (depth + 1)))).length + 1 ≤ fuel := by
      simp only [List.length_cons, List.length_append] at hfuel
      omega
    have hentries := readEntries_joined [] hkeys hplain hread (depth + 1) rest hfuel'
    obtain ⟨tail, htail⟩ := exists_joined_cons '"' _ (fields.map (entryText (depth + 1)))
    rw [← entryText, ← List.map_cons] at htail
    rw [htail] at hentries ⊢
    simpa using readValue_record hentries

end ReadsBack

theorem IsPlain.readsBack {limit : Option ℕ} {v : Value} (h : IsPlain limit v) :
    ReadsBack limit v := by
  induction h with
  | null =>
    refine readsBack_of_succ .null fun depth rest fuel _ _ => ?_
    rw [Value.null, lineText_scalar]
    exact readValue_of_readScalar (by decide) rfl
  | bool b =>
    refine readsBack_of_succ (.bool b) fun depth rest fuel _ _ => ?_
    rw [Value.bool, lineText_scalar]
    cases b <;> exact readValue_of_readScalar (by decide) rfl
  | int hn => exact readsBack_int hn
  | float hx => exact readsBack_float hx
  | text s => exact readsBack_text s
  | list hplain ih => exact readsBack_list hplain ih
  | record hkeys hplain ih => exact readsBack_record hkeys hplain ih

theorem IsPlain.read_print {limit : Option ℕ} {v : Value} (h : IsPlain limit v) :
    read limit (print .line v) = .ok v := by
  obtain ⟨c, cs, hc, hopens⟩ := h.exists_opensValue 0
  have htext : (print .line v).toList = c :: cs := hc
  have hread := h.readsBack 0 [] (2 * (c :: cs).length + 2) nofun (by rw [hc]; omega)
  rw [List.append_nil, hc] at hread
  have hmark := hopens.ne_mark
  rw [read, htext]
  split
  · next heq => exact absurd (List.cons.inj heq).1 hmark
  · rw [skipSpace_cons hopens.isSpace_eq, hread]
    rfl

open Text (IsBreak)

theorem not_isBreak_of_all {cs : List Char} {c : Char} (hc : c ∈ cs)
    (h : (cs.all fun d => decide (¬ IsBreak d)) = true) : ¬ IsBreak c :=
  of_decide_eq_true (List.all_eq_true.mp h c hc)

theorem not_isBreak_of_mem_escape {c d : Char} (hd : d ∈ escape false c) : ¬ IsBreak d := by
  have hhex : ∀ n < 0x20, ((hexEscape n).all fun d => decide (¬ IsBreak d)) = true := by decide
  simp only [escape, Bool.false_and, Bool.false_eq_true, if_false] at hd
  split_ifs at hd with hquote hn hr ht hb hf hlow
  · rw [Bool.or_eq_true, beq_iff_eq, beq_iff_eq] at hquote
    rcases hquote with rfl | rfl <;> exact not_isBreak_of_all hd (by decide)
  · exact not_isBreak_of_all hd (by decide)
  · exact not_isBreak_of_all hd (by decide)
  · exact not_isBreak_of_all hd (by decide)
  · exact not_isBreak_of_all hd (by decide)
  · exact not_isBreak_of_all hd (by decide)
  · exact not_isBreak_of_all hd (hhex _ hlow)
  · obtain rfl : d = c := by simpa using hd
    rintro (rfl | rfl)
    · exact hn rfl
    · exact hr rfl

theorem not_isBreak_of_mem_joined {parts : List (List Char)}
    (h : ∀ part ∈ parts, ∀ c ∈ part, ¬ IsBreak c) : ∀ c ∈ joined parts, ¬ IsBreak c := by
  induction parts with
  | nil => simp [joined]
  | cons part parts ih =>
    obtain ⟨hpart, hrest⟩ := List.forall_mem_cons.mp h
    by_cases hparts : parts = []
    · subst hparts
      simpa [joined] using hpart
    · rw [joined_cons part hparts]
      exact List.forall_mem_append.mpr ⟨hpart, List.forall_mem_cons.mpr
        ⟨by decide, List.forall_mem_cons.mpr ⟨by decide, ih hrest⟩⟩⟩

theorem not_isBreak_of_mem_string {s : String} {rest : List Char}
    (hrest : ∀ c ∈ rest, ¬ IsBreak c) :
    ∀ c ∈ '"' :: (s.toList.flatMap (escape false) ++ '"' :: rest), ¬ IsBreak c := by
  refine List.forall_mem_cons.mpr ⟨by decide, List.forall_mem_append.mpr ⟨fun c hc => ?_,
    List.forall_mem_cons.mpr ⟨by decide, hrest⟩⟩⟩
  obtain ⟨d, -, hd⟩ := List.mem_flatMap.mp hc
  exact not_isBreak_of_mem_escape hd

theorem not_isBreak_of_mem_enclosed {opening closing : Char} {parts : List (List Char)}
    (hopening : ¬ IsBreak opening) (hclosing : ¬ IsBreak closing)
    (h : ∀ part ∈ parts, ∀ c ∈ part, ¬ IsBreak c) :
    ∀ c ∈ opening :: (joined parts ++ [closing]), ¬ IsBreak c :=
  List.forall_mem_cons.mpr ⟨hopening, List.forall_mem_append.mpr
    ⟨not_isBreak_of_mem_joined h, List.forall_mem_singleton.mpr hclosing⟩⟩

theorem not_isBreak_of_mem_toString {n : ℤ} : ∀ c ∈ (toString n).toList, ¬ IsBreak c := by
  intro c hc
  rw [toList_toString, List.mem_append] at hc
  rcases hc with hc | hc
  · split at hc
    · exact not_isBreak_of_all hc (by decide)
    · simp at hc
  · have hdigit := Nat.isDigit_of_mem_toDigits (by decide) (by decide) hc
    rintro (rfl | rfl) <;> (revert hdigit; decide)

theorem IsPlain.not_isBreak {limit : Option ℕ} {v : Value} (h : IsPlain limit v) (depth : ℕ) :
    ∀ c ∈ lineText depth v, ¬ IsBreak c := by
  induction h generalizing depth with
  | null =>
    rw [Value.null, lineText_scalar]
    exact fun c hc => not_isBreak_of_all hc (by decide)
  | bool b =>
    rw [Value.bool, lineText_scalar]
    cases b <;> exact fun c hc => not_isBreak_of_all hc (by decide)
  | int _ =>
    rw [lineText_int]
    exact not_isBreak_of_mem_toString
  | @float x _ =>
    rw [lineText_float]
    intro c hc
    rcases isNumeral_of_mem_render x c hc with hdigit | hmark
    · rintro (rfl | rfl) <;> (revert hdigit; decide)
    · rintro (rfl | rfl) <;> (revert hmark; decide)
  | text s =>
    rw [lineText_text]
    exact not_isBreak_of_mem_string (List.forall_mem_nil _)
  | list _ ih =>
    rw [lineText_list]
    refine not_isBreak_of_mem_enclosed (by decide) (by decide) fun part hpart => ?_
    obtain ⟨v, hv, rfl⟩ := List.mem_map.mp hpart
    exact ih v hv (depth + 1)
  | record _ _ ih =>
    rw [lineText_ofFields]
    refine not_isBreak_of_mem_enclosed (by decide) (by decide) fun part hpart => ?_
    obtain ⟨f, hf, rfl⟩ := List.mem_map.mp hpart
    exact not_isBreak_of_mem_string (List.forall_mem_cons.mpr
      ⟨by decide, List.forall_mem_cons.mpr ⟨by decide, ih f hf (depth + 1)⟩⟩)

theorem fits_of_lt {n k : ℕ} (hk : 0 < k) (h : n < Nat.pow 10 k) : Fits (some k) n := by
  intro k' hk'
  obtain rfl : k = k' := by simpa using hk'
  exact (Nat.length_toDigits_le_iff (by decide) hk).mpr h

theorem areWritable_iff {items : List Value} :
    Value.areWritable items = true ↔ ∀ v ∈ items, v.isWritable = true := by
  induction items with
  | nil => simp [Value.areWritable]
  | cons v items ih => simp [Value.areWritable, ih]

theorem isWritable_ofFields_iff {fields : List (String × Value)} :
    (Value.ofFields fields).isWritable = true ↔ ∀ f ∈ fields, f.2.isWritable = true := by
  rw [Value.ofFields, Value.isWritable]
  induction fields with
  | nil => simp [Value.areWritableEntries]
  | cons f fields ih => simp [Value.areWritableEntries, Value.isWritableScalar, ih]

theorem IsPlain.unlimited {limit : Option ℕ} {v : Value} (h : IsPlain limit v) :
    IsPlain none v := by
  induction h with
  | null => exact .null
  | bool b => exact .bool b
  | int _ => exact .int nofun
  | float hx => exact .float hx
  | text s => exact .text s
  | list _ ih => exact .list ih
  | record hkeys _ ih => exact .record hkeys ih

/-- Where the numerals can be written they are within the limit of those that are read. -/
theorem IsPlain.of_isWritable {v : Value} (h : IsPlain none v) (hv : v.isWritable = true) :
    IsPlain (some Text.digitLimit) v := by
  induction h with
  | null => exact .null
  | bool b => exact .bool b
  | @int n =>
    refine .int (fits_of_lt (by decide) ?_)
    rw [Value.int, Value.isWritable, Value.isWritableScalar] at hv
    exact of_decide_eq_true hv
  | float hx => exact .float hx
  | text s => exact .text s
  | list _ ih =>
    rw [Value.isWritable, areWritable_iff] at hv
    exact .list fun v hm => ih v hm (hv v hm)
  | record hkeys _ ih =>
    rw [isWritable_ofFields_iff] at hv
    exact .record hkeys fun f hf => ih f hf (hv f hf)

end CodeAtlas.Json
