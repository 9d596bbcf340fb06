import Mathlib.Data.List.Basic
import Gherkin.Text.Basic

/-! # Plain XML documents

A grammar of the documents of XML 1.0 that have a declaration, elements with attributes in double quotes, character
data and references, and nothing else. Names are made of letters, and a right angle bracket stands nowhere in character
data, so every text of this grammar is a well-formed document. As in XML, none of its characters is one that XML does
not allow (`Gherkin.Xml.Document.clean`).
-/

namespace Gherkin.Xml

/-- Whether XML allows a character: a tab, a line break, or any other from the space on without U+FFFE and U+FFFF. -/
def Allowed (c : Char) : Prop :=
  c = '\t' ∨ c = '\n' ∨ c = '\r' ∨ (0x20 ≤ c.toNat ∧ c.toNat ≤ 0xD7FF) ∨ (0xE000 ≤ c.toNat ∧ c.toNat ≤ 0xFFFD) ∨
    (0x10000 ≤ c.toNat ∧ c.toNat ≤ 0x10FFFF)

instance : DecidablePred Allowed := fun _ => inferInstanceAs (Decidable (_ ∨ _))

/-- Whether a text is a name, of letters only. -/
def IsName (t : Text) : Prop := t ≠ [] ∧ ∀ c ∈ t, c.isAlpha = true

instance : DecidablePred IsName := fun t => @instDecidableAnd _ _ _ (List.decidableBAll _ t)

/-- Whether a text is a reference: to one of the five entities that need no declaration, or to an allowed character by
its number. -/
inductive IsReference : Text → Prop where
  | entity {name : Text} : name ∈ ["amp".toList, "lt".toList, "gt".toList, "apos".toList, "quot".toList] →
      IsReference ("&".toList ++ name ++ ";".toList)
  | character {c : Char} : Allowed c → IsReference ("&#".toList ++ Text.ofNat c.toNat ++ ";".toList)

/-- Whether a text is made of references and of allowed characters that are not reserved. -/
inductive Data (reserved : List Char) : Text → Prop where
  | nil : Data reserved []
  | char {c : Char} {t : Text} : Allowed c → c ∉ reserved → Data reserved t → Data reserved (c :: t)
  | reference {r t : Text} : IsReference r → Data reserved t → Data reserved (r ++ t)

/-- Whether a text lists attributes with some names, each of them once. -/
inductive Attributes : List Text → Text → Prop where
  | nil : Attributes [] []
  | cons {name value rest : Text} {names : List Text} : IsName name → name ∉ names → Data ['<', '&', '"'] value →
      Attributes names rest →
      Attributes (name :: names) (" ".toList ++ name ++ "=\"".toList ++ value ++ "\"".toList ++ rest)

mutual

/-- Whether a text is an element: between two tags of one name, or a single tag. -/
inductive Element : Text → Prop where
  | between {name attributes content : Text} {names : List Text} : IsName name → Attributes names attributes →
      Content content →
      Element ("<".toList ++ name ++ attributes ++ ">".toList ++ content ++ "</".toList ++ name ++ ">".toList)
  | single {name attributes : Text} {names : List Text} : IsName name → Attributes names attributes →
      Element ("<".toList ++ name ++ attributes ++ "/>".toList)

/-- Whether a text can stand between the tags of an element. -/
inductive Content : Text → Prop where
  | data {t : Text} : Data ['<', '&', '>'] t → Content t
  | element {t : Text} : Element t → Content t
  | append {s t : Text} : Content s → Content t → Content (s ++ t)

end

/-- What a document begins with. -/
def declaration : Text := "<?xml version=\"1.0\" encoding=\"UTF-8\"?>"

/-- Whether a text is a document: a declaration, white space, and one element. -/
def Document (t : Text) : Prop :=
  ∃ space element, t = declaration ++ space ++ element ∧ (∀ c ∈ space, c ∈ [' ', '\t', '\r', '\n']) ∧ Element element

/-! ### Clean texts -/

/-- Whether XML allows all characters of a text. -/
def Clean (t : Text) : Prop := ∀ c ∈ t, Allowed c

instance : DecidablePred Clean := List.decidableBAll Allowed

@[simp]
theorem clean_nil : Clean [] := List.forall_mem_nil _

@[simp]
theorem clean_append {s t : Text} : Clean (s ++ t) ↔ Clean s ∧ Clean t := List.forall_mem_append

@[simp]
theorem clean_flatMap {α : Type} {f : α → Text} {items : List α} :
    Clean (items.flatMap f) ↔ ∀ item ∈ items, Clean (f item) := by
  simp only [Clean, List.forall_mem_flatMap]

/-- A character between two others that can be printed is allowed. -/
theorem allowed_of_between {low c high : Char} (above : low ≤ c) (below : c ≤ high) (first : 0x20 ≤ low.toNat)
    (last : high.toNat ≤ 0x7F) : Allowed c := by
  have least : low.toNat ≤ c.toNat := above
  have most : c.toNat ≤ high.toNat := below
  exact .inr (.inr (.inr (.inl ⟨by omega, by omega⟩)))

theorem allowed_of_isDigit {c : Char} (digit : c.isDigit = true) : Allowed c := by
  obtain ⟨above, below⟩ := Bool.and_eq_true_iff.mp digit
  exact allowed_of_between (of_decide_eq_true above) (of_decide_eq_true below) (by decide) (by decide)

theorem allowed_of_isAlpha {c : Char} (letter : c.isAlpha = true) : Allowed c := by
  obtain capital | small := Bool.or_eq_true_iff.mp letter
  · obtain ⟨above, below⟩ := of_decide_eq_true capital
    exact allowed_of_between above below (by decide) (by decide)
  · obtain ⟨above, below⟩ := Bool.and_eq_true_iff.mp small
    exact allowed_of_between (of_decide_eq_true above) (of_decide_eq_true below) (by decide) (by decide)

@[simp]
theorem clean_ofNat (n : Nat) : Clean (Text.ofNat n) :=
  fun _ member => allowed_of_isDigit (Nat.isDigit_of_mem_toDigits (by decide) (by decide) member)

theorem IsName.clean {t : Text} (named : IsName t) : Clean t := fun c member => allowed_of_isAlpha (named.2 c member)

theorem IsReference.clean {t : Text} (reference : IsReference t) : Clean t := by
  cases reference with
  | entity listed =>
    have each : ∀ name ∈ ["amp".toList, "lt".toList, "gt".toList, "apos".toList, "quot".toList],
        Clean ("&".toList ++ name ++ ";".toList) := by decide
    exact each _ listed
  | character _ =>
    rw [clean_append, clean_append]
    exact ⟨⟨by decide, clean_ofNat _⟩, by decide⟩

theorem Data.clean {reserved : List Char} {t : Text} (data : Data reserved t) : Clean t := by
  induction data with
  | nil => exact clean_nil
  | char allowed _ _ ih => exact List.forall_mem_cons.mpr ⟨allowed, ih⟩
  | reference reference _ ih => exact clean_append.mpr ⟨reference.clean, ih⟩

theorem Attributes.clean {names : List Text} {t : Text} (attributes : Attributes names t) : Clean t := by
  induction attributes with
  | nil => exact clean_nil
  | cons named _ value _ ih =>
    simp only [clean_append]
    exact ⟨⟨⟨⟨⟨by decide, named.clean⟩, by decide⟩, value.clean⟩, by decide⟩, ih⟩

mutual

theorem Element.clean {t : Text} : Element t → Clean t
  | .between named attributes content => by
    simp only [clean_append]
    exact ⟨⟨⟨⟨⟨⟨⟨by decide, named.clean⟩, attributes.clean⟩, by decide⟩, content.clean⟩, by decide⟩, named.clean⟩,
      by decide⟩
  | .single named attributes => by
    simp only [clean_append]
    exact ⟨⟨⟨by decide, named.clean⟩, attributes.clean⟩, by decide⟩

theorem Content.clean {t : Text} : Content t → Clean t
  | .data data => data.clean
  | .element element => element.clean
  | .append first second => clean_append.mpr ⟨first.clean, second.clean⟩

end

/-- A document holds only characters that XML allows. -/
theorem Document.clean {t : Text} (document : Document t) : Clean t := by
  obtain ⟨space, element, rfl, blank, root⟩ := document
  have blanks : Clean [' ', '\t', '\r', '\n'] := by decide
  rw [clean_append, clean_append]
  exact ⟨⟨by decide, fun c member => blanks c (blank c member)⟩, root.clean⟩

/-! ### Data and content -/

theorem Data.append {reserved : List Char} {s t : Text} (first : Data reserved s) (second : Data reserved t) :
    Data reserved (s ++ t) := by
  induction first with
  | nil => exact second
  | char allowed plain _ ih => exact .char allowed plain ih
  | reference reference _ ih =>
    rw [List.append_assoc]
    exact .reference reference ih

/-- A clean text without reserved characters is data as it stands. -/
theorem Data.of_clean {reserved : List Char} {t : Text} (clean : Clean t) (plain : ∀ c ∈ t, c ∉ reserved) :
    Data reserved t := by
  induction t with
  | nil => exact .nil
  | cons c rest ih =>
    rw [Clean, List.forall_mem_cons] at clean
    rw [List.forall_mem_cons] at plain
    exact .char clean.1 plain.1 (ih clean.2 plain.2)

theorem Content.flatMap {α : Type} {f : α → Text} {items : List α} (each : ∀ item ∈ items, Content (f item)) :
    Content (items.flatMap f) := by
  induction items with
  | nil => exact .data .nil
  | cons item rest ih =>
    rw [List.forall_mem_cons] at each
    exact .append each.1 (ih each.2)

end Gherkin.Xml
