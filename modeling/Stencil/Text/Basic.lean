/-!
Text is a list of characters and raw input a list of bytes. Positions in a
template count the bytes of the written text, so a text also has a size in
bytes. Every other module builds on these two types.
-/
namespace Stencil

abbrev Text := List Char

abbrev Bytes := List UInt8

namespace Text

def byteSize : Text → Nat
  | [] => 0
  | first :: rest => first.utf8Size + byteSize rest

def encode (content : Text) : Bytes := content.flatMap String.utf8EncodeChar

@[simp] theorem byteSize_nil : byteSize [] = 0 := rfl

@[simp] theorem byteSize_cons (first : Char) (rest : Text) :
    byteSize (first :: rest) = first.utf8Size + byteSize rest := rfl

@[simp] theorem byteSize_append (front back : Text) :
    byteSize (front ++ back) = byteSize front + byteSize back := by
  induction front with
  | nil => simp
  | cons first rest ih => simp [ih, Nat.add_assoc]

theorem byteSize_eq_zero_iff {content : Text} : byteSize content = 0 ↔ content = [] := by
  cases content with
  | nil => simp
  | cons c rest =>
      have size := c.utf8Size_pos
      simp only [byteSize_cons, reduceCtorEq, iff_false]
      omega

end Text
end Stencil
