import Stencil.Template.Fault

/-!
A template is cut into literals and slots. A slot opens at the first pair of
opening braces and closes at the first pair of closing braces after it; the
text in between is its body. Single braces are ordinary characters. A slot
also knows the characters that touch it, because a tag without a specifier
runs up to the character that follows it.
-/
namespace Stencil

/-- A tag as it stands in the template, not yet read. `before` and `after`
are absent at the ends of the template and next to another slot. -/
structure Slot where
  body : Text
  offset : Nat
  before : Option Char
  after : Option Char
  deriving DecidableEq, Repr

inductive Token where
  | literal (content : Text)
  | slot (hole : Slot)
  deriving DecidableEq, Repr

def cutPair (mark : Char) : Text → Option (Text × Text)
  | first :: second :: rest =>
      if first = mark ∧ second = mark then some ([], rest)
      else (cutPair mark (second :: rest)).map fun cut => (first :: cut.1, cut.2)
  | _ => none

theorem cutPair_eq_some {mark : Char} {content before after : Text}
    (found : cutPair mark content = some (before, after)) :
    content = before ++ mark :: mark :: after := by
  induction content generalizing before with
  | nil => simp [cutPair] at found
  | cons first rest ih =>
      cases rest with
      | nil => simp [cutPair] at found
      | cons second rest =>
          rw [cutPair] at found
          split at found
          next marks =>
            obtain ⟨rfl, rfl⟩ := marks
            simp_all
          next =>
            obtain ⟨⟨front, back⟩, cut, same⟩ := Option.map_eq_some_iff.mp found
            obtain ⟨rfl, rfl⟩ := Prod.mk.inj same
            rw [ih cut]
            rfl

namespace Token

def literals (content : Text) : List Token :=
  if content = [] then [] else [.literal content]

-- A literal may hold no pair of closing braces.
def checkLiteral (offset : Nat) (content : Text) : Except TemplateFault Unit :=
  match cutPair '}' content with
  | some (before, _) => .error (.unexpectedClose (offset + Text.byteSize before))
  | none => .ok ()

/-- Cuts the text that starts `offset` bytes into the template. The slots do
not know their neighbours yet. -/
def scan (offset : Nat) (content : Text) : Except TemplateFault (List Token) :=
  match _opened : cutPair '{' content with
  | none => do
      checkLiteral offset content
      return literals content
  | some (before, inside) => do
      checkLiteral offset before
      let start := offset + Text.byteSize before
      match _closed : cutPair '}' inside with
      | none => .error (.unterminated start)
      | some (body, rest) =>
          if (cutPair '{' body).isSome then .error (.nested start)
          else
            let following ← scan (start + 2 + Text.byteSize body + 2) rest
            return literals before ++ .slot ⟨body, start, none, none⟩ :: following
termination_by content.length
decreasing_by
  have whole := congrArg List.length (cutPair_eq_some _opened)
  have part := congrArg List.length (cutPair_eq_some _closed)
  simp only [List.length_append, List.length_cons] at whole part
  omega

def leading? : List Token → Option Char
  | .literal content :: _ => content.head?
  | _ => none

/-- Tells each slot its neighbours. `before` is the last character of the
literal in front of the tokens. -/
def linked (before : Option Char) : List Token → List Token
  | [] => []
  | .literal content :: rest => .literal content :: linked content.getLast? rest
  | .slot hole :: rest =>
      .slot { hole with before := before, after := leading? rest } :: linked none rest

@[simp] theorem leading?_linked (before : Option Char) (tokens : List Token) :
    leading? (linked before tokens) = leading? tokens := by
  cases tokens with
  | nil => rfl
  | cons token rest => cases token <;> rfl

def ofTemplate (template : Text) : Except TemplateFault (List Token) :=
  (scan 0 template).map (linked none)

def written : Token → Text
  | .literal content => content
  | .slot hole => '{' :: '{' :: hole.body ++ ['}', '}']

end Token
end Stencil
