/-!
# Byte orders and words

A word is a natural number spelled by a fixed number of bytes. `Word.ofLittle` and `Word.toLittle`
spell it with the least significant byte first; a `ByteOrder` either leaves those bytes as they are
or reverses them. Signed words are the same bytes read around zero.
-/

namespace LinearExecutable

/-- The order in which the bytes of a word stand. -/
inductive ByteOrder where
  | little
  | big
  deriving DecidableEq, Repr

namespace Word

/-- The number of words of `width` bytes. -/
def bound : Nat → Nat
  | 0 => 1
  | width + 1 => 256 * bound width

/-! ## Words with the least significant byte first -/

/-- The number spelled by bytes, least significant byte first. -/
def ofLittle : List UInt8 → Nat
  | [] => 0
  | b :: rest => b.toNat + 256 * ofLittle rest

/-- The low `width` bytes of a number, least significant byte first. -/
def toLittle : Nat → Nat → List UInt8
  | 0, _ => []
  | width + 1, n => UInt8.ofNat n :: toLittle width (n / 256)

@[simp] theorem length_toLittle (width n : Nat) : (toLittle width n).length = width := by
  induction width generalizing n with
  | zero => rfl
  | succ width ih => simp [toLittle, ih]

/-- Bytes spell a number below the bound of their width. -/
theorem ofLittle_lt (bytes : List UInt8) : ofLittle bytes < bound bytes.length := by
  induction bytes with
  | nil => simp [ofLittle, bound]
  | cons b rest ih =>
    have hb : b.toNat < 256 := b.toNat_lt
    simp only [ofLittle, List.length_cons, bound]
    omega

/-- A number that fits its width is read back from its bytes. -/
theorem ofLittle_toLittle {width n : Nat} (h : n < bound width) :
    ofLittle (toLittle width n) = n := by
  induction width generalizing n with
  | zero => simp_all [toLittle, ofLittle, bound]
  | succ width ih =>
    have hq : n / 256 < bound width := Nat.div_lt_of_lt_mul h
    simp only [toLittle, ofLittle, ih hq]
    have : (UInt8.ofNat n).toNat = n % 256 := by simp
    omega

/-- Bytes are the spelling of the number that they spell. -/
theorem toLittle_ofLittle (bytes : List UInt8) :
    toLittle bytes.length (ofLittle bytes) = bytes := by
  induction bytes with
  | nil => rfl
  | cons b rest ih =>
    have hb : b.toNat < 256 := b.toNat_lt
    have hlow : UInt8.ofNat (b.toNat + 256 * ofLittle rest) = b := by
      apply UInt8.toNat_inj.mp
      simp
    have hhigh : (b.toNat + 256 * ofLittle rest) / 256 = ofLittle rest := by omega
    simp only [List.length_cons, ofLittle, toLittle, hlow, hhigh, ih]

/-! ## Signed words -/

/-- A word of `width` bytes read as a number around zero: the upper half is negative. -/
def toSigned (width n : Nat) : Int :=
  Int.bmod n (bound width)

/-- The word of `width` bytes that stands for a number around zero. -/
def ofSigned (width : Nat) (i : Int) : Nat :=
  (i % (bound width : Int)).toNat

end Word

namespace ByteOrder

/-- Bytes in this order from bytes with the least significant first, and back. -/
def arrange : ByteOrder → List UInt8 → List UInt8
  | .little, bytes => bytes
  | .big, bytes => bytes.reverse

@[simp] theorem arrange_arrange (order : ByteOrder) (bytes : List UInt8) :
    order.arrange (order.arrange bytes) = bytes := by
  cases order <;> simp [arrange]

@[simp] theorem length_arrange (order : ByteOrder) (bytes : List UInt8) :
    (order.arrange bytes).length = bytes.length := by
  cases order <;> simp [arrange]

/-- The number spelled by bytes in this order. -/
def word (order : ByteOrder) (bytes : List UInt8) : Nat :=
  Word.ofLittle (order.arrange bytes)

/-- The low `width` bytes of a number in this order. -/
def wordBytes (order : ByteOrder) (width n : Nat) : List UInt8 :=
  order.arrange (Word.toLittle width n)

@[simp] theorem length_wordBytes (order : ByteOrder) (width n : Nat) :
    (order.wordBytes width n).length = width := by
  simp [wordBytes]

theorem word_wordBytes (order : ByteOrder) {width n : Nat} (h : n < Word.bound width) :
    order.word (order.wordBytes width n) = n := by
  simp [word, wordBytes, Word.ofLittle_toLittle h]

theorem wordBytes_word (order : ByteOrder) (bytes : List UInt8) :
    order.wordBytes bytes.length (order.word bytes) = bytes := by
  have h : bytes.length = (order.arrange bytes).length := by simp
  rw [wordBytes, word, h, Word.toLittle_ofLittle, arrange_arrange]

/-- The one-character name of an order. -/
def symbol : ByteOrder → String
  | .little => "<"
  | .big => ">"

/-- The order with a one-character name. -/
def ofSymbol? : String → Option ByteOrder
  | "<" => some .little
  | ">" => some .big
  | _ => none

end ByteOrder

end LinearExecutable
