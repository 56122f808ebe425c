import LinearExecutable.Proofs.Bytes.Window
import LinearExecutable.Proofs.Document.Block
import LinearExecutable.Schema

/-!
# What is asked of a library

A library writes a mapping of scalars in a mapping as lines, with a name and a word on each, and
reads such lines as a mapping. The words are those of the core schema of the notation: null has
none, truth values have names, numbers are digits. Values are represented by the names of their
items, and validated by the keys of the items: of the keys of an item the first that is there
counts, and scalars of its kind are taken as they are. From this follows, for every library that
keeps to it and every schema whose names do not get into the way of its keys, that what is written
is read again.
-/

namespace LinearExecutable

namespace Document

/-! ## 1. Lines that show fields -/

/-- A name that stands without quotes: small letters and underscores, not too many of them to stand
in front of a colon, and no word for null or for a truth value. -/
structure IsName (name : String) : Prop where
  ne_nil : name.toList ≠ []
  all : ∀ c ∈ name.toList, c.isLower ∨ c = '_'
  length_lt : name.toList.length < 128
  ne_word : name ∉ ["null", "true", "false"]

/-- The words that are written for scalars; null has none. Numerals of base ten have a greatest
length. -/
inductive IsWordFor : Option (List Char) → Document → Prop
  | null : IsWordFor none .null
  | truth (b : Bool) : IsWordFor (some (truthWord b)) (.bool b)
  | whole (n : Nat) (hlength : (Nat.toDigits 10 n).length ≤ Text.maxDigits) :
      IsWordFor (some (Nat.toDigits 10 n)) (.int n)

/-- The scalars that words are read as. Digits are read as the number that they spell, also with
zeros in front. -/
inductive Stands : Option (List Char) → Document → Prop
  | null : Stands none .null
  | truth (b : Bool) : Stands (some (truthWord b)) (.bool b)
  | whole {digits : List Char} (hdigits : IsNumeral digits)
      (hlength : digits.length ≤ Text.maxDigits) :
      Stands (some digits) (.int (Nat.ofDigitChars 10 digits 0))

/-- A line shows a field if a word for the scalar stands under the name, on the same line or on a
line of its own. -/
structure Line.Shows (related : Option (List Char) → Document → Prop) (l : Line)
    (field : String × Document) : Prop where
  key : l.key = field.1.toList
  value : related l.value.word? field.2

/-- A mapping in a mapping whose names need no quotes; no two of them are the same. -/
structure IsPlain (name : String) (fields : List (String × Document)) : Prop where
  name : IsName name
  ne_nil : fields ≠ []
  names : ∀ field ∈ fields, IsName field.1
  nodup : (fields.map Prod.fst).Nodup

end Document

/-! ## 2. The laws -/

namespace Schema

end Schema

open Document (Line IsName IsPlain IsWordFor Stands nested nestedText fieldColumn)
open Schema (Item)

namespace Document

theorem IsName.of_all {name : String} (hne : name.toList.isEmpty = false)
    (hall : name.toList.all fun c => c.isLower || c = '_') (hlength : name.toList.length < 128)
    (hword : name ∉ ["null", "true", "false"]) : IsName name where
  ne_nil := List.isEmpty_eq_false_iff.mp hne
  all c hc := by
    have hchar := List.all_eq_true.mp hall c hc
    rwa [Bool.or_eq_true, decide_eq_true_eq] at hchar
  length_lt := hlength
  ne_word := hword

theorem IsName.isBareWord {name : String} (h : IsName name) : IsBareWord name.toList where
  ne_nil := h.ne_nil
  all c hc := by
    obtain hlower | rfl := h.all c hc
    · simp [isBareChar, Char.isAlphanum, Char.isAlpha, hlower]
    · rfl

theorem isBareWord_truthWord (b : Bool) : IsBareWord (truthWord b) := by
  cases b <;> exact .of_all rfl rfl

theorem isNumeral_toDigits (n : Nat) : IsNumeral (Nat.toDigits 10 n) where
  ne_nil := Nat.toDigits_ne_nil
  all _ hc := Nat.isDigit_of_mem_toDigits (by decide) (by decide) hc

/-- The words that are written for scalars stand for them. -/
theorem IsWordFor.stands {word? : Option (List Char)} {doc : Document} (h : IsWordFor word? doc) :
    Stands word? doc := by
  cases h with
  | null => exact .null
  | truth b => exact .truth b
  | whole n hlength =>
    have hstands := Stands.whole (isNumeral_toDigits n) hlength
    rwa [Nat.ofDigitChars_ten_toDigits] at hstands

theorem Stands.isBareWord {word? : Option (List Char)} {doc : Document} (h : Stands word? doc) :
    ∀ word ∈ word?, IsBareWord word := by
  cases h with
  | null => nofun
  | truth b => exact fun _ hword => Option.some.inj hword ▸ isBareWord_truthWord b
  | whole hdigits _ => exact fun _ hword => Option.some.inj hword ▸ hdigits.isBareWord

theorem IsName.isSound {name : String} (h : IsName name) :
    (Line.mk name.toList .missing).IsSound where
  key := h.isBareWord
  length_le := h.length_lt.le.trans (by decide)
  value := nofun

theorem Line.Shows.isSound {l : Line} {field : String × Document} (h : l.Shows Stands field)
    (hname : IsName field.1) : l.IsSound where
  key := h.key ▸ hname.isBareWord
  length_le := h.key ▸ hname.isSound.length_le
  value := h.value.isBareWord

end Document

/-! ## 5. Values are found under their names -/

namespace Schema

/-- Names and keys of a schema: the names need no quotes, and of the keys of an item its own name is
the first that is a name of an item at all. -/
structure IsSound (s : Schema) : Prop where
  key : IsName s.key
  ne_nil : s.items ≠ []
  names : ∀ item ∈ s.items, IsName item.name
  nodup : (s.items.map Item.name).Nodup
  keys : ∀ item ∈ s.items, item.keys.find? (· ∈ s.items.map Item.name) = some item.name

theorem map_fst_fields (items : List Item) (values : Values items) :
    (fields items values).map Prod.fst = items.map Item.name := by
  induction items with
  | nil => rfl
  | cons item items ih =>
    obtain ⟨value, values⟩ := values
    exact congrArg _ (ih values)

/-- Values are represented under names that need no quotes. -/
theorem IsSound.isPlain {s : Schema} (hs : s.IsSound) (values : Values s.items) :
    IsPlain s.key (fields s.items values) := by
  have hnames := map_fst_fields s.items values
  refine ⟨hs.key, ?_, ?_, hnames ▸ hs.nodup⟩
  · intro hnil
    rw [hnil] at hnames
    exact hs.ne_nil (List.map_eq_nil_iff.mp hnames.symm)
  · intro field hfield
    have hmem := List.mem_map_of_mem (f := Prod.fst) hfield
    rw [hnames] at hmem
    obtain ⟨item, hitem, hname⟩ := List.mem_map.mp hmem
    exact hname ▸ hs.names item hitem

end Schema

/-! ## 6. What is written is read again -/

end LinearExecutable
