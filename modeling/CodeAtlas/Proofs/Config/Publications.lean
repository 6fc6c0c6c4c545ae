import CodeAtlas.Config.Compose
import CodeAtlas.Proofs.Files.Cutting
import CodeAtlas.Proofs.Text.Digits

/-! # Mappings and credentials as they are written

A mapping that is written with an address before its numbers and a protocol after them is read as
the two numbers. Credentials are read as the user name before the first slash and the password after
it.
-/

namespace CodeAtlas

namespace Compose

open Text

/-- What comes before the numbers of a mapping: nothing, or something without a slash that ends in a
colon. -/
def IsAddress (front : List Char) : Prop := front = [] ∨ ∃ a, front = a ++ [':'] ∧ '/' ∉ a

/-- What comes after the numbers of a mapping: nothing, or something that starts with a slash. -/
def IsProtocol (back : List Char) : Prop := back = [] ∨ ∃ b, back = '/' :: b

def numbers (published inside : ℕ) : List Char :=
  Nat.toDigits 10 published ++ ':' :: Nat.toDigits 10 inside

/-- A mapping of two numbers, with or without an address and a protocol. -/
def IsMapping (published inside : ℕ) (cs : List Char) : Prop :=
  ∃ front back, cs = front ++ numbers published inside ++ back ∧ IsAddress front ∧ IsProtocol back

section Mapping

variable {published inside : ℕ} {p : Char → Bool} {front back cs : List Char}

theorem not_mem_toDigits {c : Char} (hc : c.isDigit = false) (n : ℕ) : c ∉ Nat.toDigits 10 n :=
  fun h => by simp [Json.isDigit_of_mem_toDigits n c h] at hc

theorem isDigit_of_mem_head? {c : Char} (h : c ∈ (numbers published inside).head?) :
    c.isDigit = true := by
  rw [numbers, List.head?_append_of_ne_nil _ Nat.toDigits_ne_nil] at h
  exact Json.isDigit_of_mem_toDigits published c (List.mem_of_mem_head? h)

theorem isDigit_of_mem_getLast? {c : Char} (h : c ∈ (numbers published inside).getLast?) :
    c.isDigit = true := by
  rw [numbers, List.append_cons, List.getLast?_append_of_ne_nil _ Nat.toDigits_ne_nil] at h
  exact Json.isDigit_of_mem_toDigits inside c (List.mem_of_mem_getLast? h)

theorem IsAddress.dropWhile (h : IsAddress front) (hp : p ':' = false) :
    IsAddress (front.dropWhile p) := by
  obtain rfl | ⟨a, rfl, ha⟩ := h
  · exact .inl rfl
  · refine .inr ⟨a.dropWhile p, ?_, fun hmem => ha ((List.dropWhile_sublist p).mem hmem)⟩
    exact dropWhile_append_of_head a (by simpa using hp) (List.cons_ne_nil _ _)

theorem IsProtocol.dropWhileEnd (h : IsProtocol back) (hp : p '/' = false) :
    IsProtocol (dropWhileEnd p back) := by
  obtain rfl | ⟨b, rfl⟩ := h
  · exact .inl rfl
  · refine .inr ⟨Text.dropWhileEnd p b, ?_⟩
    rw [Text.dropWhileEnd, List.reverse_cons,
      dropWhile_append_of_head b.reverse (by simpa using hp) (List.cons_ne_nil _ _),
      List.reverse_append]
    rfl

/-- Trimming leaves the numbers of a mapping, and what separates them from the rest. -/
theorem IsMapping.trimWhere (h : IsMapping published inside cs) (hcolon : p ':' = false)
    (hslash : p '/' = false) (hdigit : ∀ c, c.isDigit = true → p c = false) :
    IsMapping published inside (trimWhere p cs) := by
  obtain ⟨front, back, rfl, hfront, hback⟩ := h
  refine ⟨front.dropWhile p, Text.dropWhileEnd p back, ?_, hfront.dropWhile hcolon,
    hback.dropWhileEnd hslash⟩
  apply trimWhere_around
  · simp [numbers]
  · exact fun c hc => hdigit c (isDigit_of_mem_head? hc)
  · exact fun c hc => hdigit c (isDigit_of_mem_getLast? hc)

theorem IsMapping.unquote {q : Char} (h : IsMapping published inside cs) (hcolon : q ≠ ':')
    (hslash : q ≠ '/') (hdigit : q.isDigit = false) :
    IsMapping published inside (unquote q cs) := by
  refine h.trimWhere (by simpa using hcolon.symm) (by simpa using hslash.symm) fun c hc => ?_
  refine beq_eq_false_iff_ne.mpr ?_
  rintro rfl
  simp [hc] at hdigit

theorem takeWhile_mapping (hfront : IsAddress front) (hback : IsProtocol back) :
    (front ++ numbers published inside ++ back).takeWhile (· != '/') =
      front ++ numbers published inside := by
  have hslash : '/' ∉ front := by
    obtain rfl | ⟨a, rfl, ha⟩ := hfront <;> simp [*]
  refine Path.takeWhile_bne_append (by simp [hslash, numbers, not_mem_toDigits]) ?_
  obtain rfl | ⟨b, rfl⟩ := hback <;> simp

theorem exists_splitAt_mapping (published inside : ℕ) (hfront : IsAddress front) :
    ∃ parts, Path.splitAt ':' (front ++ numbers published inside) =
      parts ++ [Nat.toDigits 10 published, Nat.toDigits 10 inside] := by
  have hdigits (n : ℕ) : Path.splitAt ':' (Nat.toDigits 10 n) = [Nat.toDigits 10 n] :=
    Path.splitAt_of_not_mem (not_mem_toDigits (by decide) n)
  have hnumbers : Path.splitAt ':' (numbers published inside) =
      [Nat.toDigits 10 published, Nat.toDigits 10 inside] := by
    rw [numbers, Path.splitAt_append, hdigits, hdigits]
    rfl
  obtain rfl | ⟨a, rfl, -⟩ := hfront
  · exact ⟨[], hnumbers⟩
  · refine ⟨Path.splitAt ':' a, ?_⟩
    rw [List.append_assoc, List.singleton_append, Path.splitAt_append, hnumbers]

/-- A mapping is read as its numbers, whatever address and protocol are around them. -/
theorem publication?_of_isMapping {mapping : String}
    (h : IsMapping published inside mapping.toList) (hpublished : published < 10 ^ digitLimit)
    (hinside : inside < 10 ^ digitLimit) :
    publication? mapping = some ((published : ℤ), (inside : ℤ)) := by
  have hblank := h.trimWhere (p := isBlank) (by decide) (by decide) fun _ => isBlank_of_isDigit
  obtain ⟨front, back, hcs, hfront, hback⟩ :=
    (hblank.unquote (q := '"') (by decide) (by decide) (by decide)).unquote (q := '\'')
      (by decide) (by decide) (by decide)
  obtain ⟨parts, hparts⟩ := exists_splitAt_mapping published inside hfront
  have hread {n : ℕ} (hn : n < 10 ^ digitLimit) :
      readInt? (.ofList (Nat.toDigits 10 n)) = some (n : ℤ) := by
    rw [← Nat.toString_eq_ofList_toDigits, readInt?_toString hn]
  rw [publication?, hcs, takeWhile_mapping hfront hback, if_neg (by simp [numbers]),
    hparts]
  simp [hread hpublished, hread hinside]

end Mapping

def mappingText (address : Option String) (published inside : ℕ) (protocol : Option String) :
    String :=
  address.elim "" (· ++ ":") ++ toString published ++ ":" ++ toString inside ++
    protocol.elim "" ("/" ++ ·)

theorem isMapping_mappingText {address : Option String} (h : ∀ a ∈ address, '/' ∉ a.toList)
    (published inside : ℕ) (protocol : Option String) :
    IsMapping published inside (mappingText address published inside protocol).toList := by
  refine ⟨(address.elim "" (· ++ ":")).toList, (protocol.elim "" ("/" ++ ·)).toList, ?_, ?_, ?_⟩
  · simp [mappingText, numbers]
  · cases address with
    | none => exact .inl rfl
    | some a => exact .inr ⟨a.toList, String.toList_append, h a rfl⟩
  · cases protocol with
    | none => exact .inl rfl
    | some b => exact .inr ⟨b.toList, String.toList_append⟩

theorem credentials?_of_slash {name password : String} (hname : name ≠ "")
    (hpassword : password ≠ "") (hslash : '/' ∉ name.toList) :
    credentials? (name ++ "/" ++ password) = some (name, password) := by
  have htext : (name ++ "/" ++ password).toList = name.toList ++ '/' :: password.toList := by
    simp
  have htake : (name.toList ++ '/' :: password.toList).takeWhile (· != '/') = name.toList :=
    Path.takeWhile_bne_append hslash (by simp)
  rw [credentials?, htext, htake, List.drop_left]
  simp [hname, hpassword]

theorem after?_append (mark text : String) : after? mark (mark ++ text) = some text := by
  have hstart : (mark ++ text).startsWith mark = true := by
    rw [String.startsWith_string_iff, String.toList_append]
    exact List.prefix_append _ _
  rw [after?, if_pos hstart, String.toList_append, ← String.length_toList, List.drop_left,
    String.ofList_toList]

theorem after?_of_not_startsWith {mark text : String} (h : text.startsWith mark = false) :
    after? mark text = none := by
  rw [after?, h]
  rfl

end Compose

end CodeAtlas
