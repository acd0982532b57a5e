import EntityRules.Selector.Basic
import EntityRules.Text.Alphanumeric
import EntityRules.Text.Blank

/-!
# Reading selectors

**Input.**  The characters of a text.

**Algorithm.**  A selector is a row of atoms with blanks around each and a `:` or a `,`
between two.  An atom is a sign and an identifier.  The reader takes one atom after another
and stops at the first character that cannot go on; the position of an error is the number of
bytes before the rest of the text at which it stopped.

**Results.**  `Selector.read` gives a single chain as such and several as a union, in the
order of the text.
-/

namespace EntityRules

/-- Why a text is not a selector. -/
inductive SelectorFault where
  | empty
  | expectedSeparator
  | expectedSelector
  | unexpected (c : Char)
  | expectedIdentifier (sign : Char)
  | unknownEvent (name : String)
deriving DecidableEq, Repr

/-- The wording of a fault. -/
def SelectorFault.detail : SelectorFault → String
  | .empty => "empty selector"
  | .expectedSeparator => "expected ',' or ':'"
  | .expectedSelector => "expected selector"
  | .unexpected c => "unexpected '" ++ String.singleton c ++ "', expected '@', '#' or '!'"
  | .expectedIdentifier sign => "expected identifier after '" ++ String.singleton sign ++ "'"
  | .unknownEvent name => "unknown event '" ++ name ++ "', expected 'enter' or 'exit'"

/-- A fault and the number of bytes before it. -/
structure SelectorError where
  fault : SelectorFault
  position : Nat
deriving DecidableEq, Repr

/-- The wording of an error. -/
def SelectorError.message (e : SelectorError) : String :=
  "parse error at position " ++ toString e.position ++ ": " ++ e.fault.detail

namespace EventKind

/-- The kind of a name, with the error for a text that is none. -/
def read (text : String) : Except SelectorError EventKind :=
  match ofName? text with
  | some kind => .ok kind
  | none => .error ⟨.unknownEvent text, 0⟩

end EventKind

namespace Selector

/-- Whether a character can stand in an identifier. -/
def isIdentifier (c : Char) : Bool := Text.isAlphanumeric c || c == '_' || c == '-'

/-- A fault and the rest of the text at which it shows. -/
structure Stop where
  fault : SelectorFault
  rest : List Char

/-- The identifier after a sign, and the rest of the text. -/
def identifier (sign : Char) (s : List Char) : Except Stop (String × List Char) :=
  let name := s.takeWhile isIdentifier
  if name.isEmpty then .error ⟨.expectedIdentifier sign, s⟩
  else .ok (String.ofList name, s.dropWhile isIdentifier)

/-- The atom at the start of a text, and the rest of the text. -/
def readAtom : List Char → Except Stop (Atom × List Char)
  | [] => .error ⟨.expectedSelector, []⟩
  | c :: s =>
    if c = '@' then (identifier c s).map fun (name, rest) => (.id name, rest)
    else if c = '#' then (identifier c s).map fun (name, rest) => (.tag name, rest)
    else if c = '!' then
      match identifier c s with
      | .error stop => .error stop
      | .ok (name, rest) =>
        match EventKind.ofName? name with
        | some kind => .ok (.event kind, rest)
        | none => .error ⟨.unknownEvent name, s⟩
    else .error ⟨.unexpected c, c :: s⟩

theorem length_dropWhile_le {α : Type} (p : α → Bool) (s : List α) :
    (s.dropWhile p).length ≤ s.length := by
  induction s with
  | nil => simp
  | cons c s ih =>
    simp only [List.dropWhile_cons]
    split
    · simp; omega
    · simp

theorem length_rest_le_of_identifier {sign : Char} {s : List Char} {p : String × List Char}
    (h : identifier sign s = .ok p) : p.2.length ≤ s.length := by
  simp only [identifier] at h
  split at h
  · simp at h
  · simp only [Except.ok.injEq] at h
    subst h
    exact length_dropWhile_le _ _

theorem length_rest_lt_of_readAtom {s : List Char} {p : Atom × List Char}
    (h : readAtom s = .ok p) : p.2.length < s.length := by
  cases s with
  | nil => simp [readAtom] at h
  | cons c s =>
    have key : ∀ q, identifier c s = .ok q → q.2.length < (c :: s).length := fun q hq =>
      Nat.lt_succ_of_le (length_rest_le_of_identifier hq)
    simp only [readAtom] at h
    split at h
    · cases hq : identifier c s with
      | error e => simp [hq, Except.map] at h
      | ok q =>
        simp only [hq, Except.map, Except.ok.injEq] at h
        subst h
        exact key q hq
    · split at h
      · cases hq : identifier c s with
        | error e => simp [hq, Except.map] at h
        | ok q =>
          simp only [hq, Except.map, Except.ok.injEq] at h
          subst h
          exact key q hq
      · split at h
        · cases hq : identifier c s with
          | error e => simp [hq] at h
          | ok q =>
            obtain ⟨name, rest⟩ := q
            simp only [hq] at h
            split at h
            · simp only [Except.ok.injEq] at h
              subst h
              exact key _ hq
            · simp at h
        · simp at h

/-- The chain of the given atoms. -/
def ofAtoms (head : Atom) : List Atom → Selector
  | [] => .atom head
  | next :: rest => .refined head (ofAtoms next rest)

/-- A single chain as such, several as a union. -/
def ofChains : List Selector → Selector
  | [chain] => chain
  | chains => .union chains

/-- The chain whose atoms before the last are given in reverse order. -/
def closeChain (before : List Atom) (last : Atom) : Selector :=
  before.foldl (fun chain head => .refined head chain) (.atom last)

/-- The chains of a text that goes on with an atom, after the atoms of the open chain and the
closed chains, both in reverse order. -/
def readChains (s : List Char) (current : List Atom) (closed : List Selector) :
    Except Stop (List Selector) :=
  match h : readAtom s with
  | .error stop => .error stop
  | .ok (head, rest) =>
    match hr : Text.trimStart rest with
    | [] => .ok (closeChain current head :: closed).reverse
    | c :: rest' =>
      have : (Text.trimStart rest').length < s.length := by
        have h₁ := length_rest_lt_of_readAtom h
        have h₂ := length_dropWhile_le Text.isBlank rest
        have h₃ := length_dropWhile_le Text.isBlank rest'
        simp only [Text.trimStart] at hr ⊢
        simp only [hr, List.length_cons] at h₂
        simp only at h₁
        omega
      if c = ':' then readChains (Text.trimStart rest') (head :: current) closed
      else if c = ',' then
        readChains (Text.trimStart rest') [] (closeChain current head :: closed)
      else .error ⟨.expectedSeparator, c :: rest'⟩
termination_by s.length

/-- The number of bytes of a text. -/
def byteCount (s : List Char) : Nat := (String.ofList s).utf8ByteSize

/-- Reads the characters of a selector. -/
def readChars (s : List Char) : Except SelectorError Selector :=
  let start := Text.trimStart s
  let result :=
    if start.isEmpty then .error ⟨.empty, []⟩ else readChains start [] []
  match result with
  | .ok chains => .ok (ofChains chains)
  | .error stop => .error ⟨stop.fault, byteCount s - byteCount stop.rest⟩

/-- Reads a selector. -/
def read (text : String) : Except SelectorError Selector := readChars text.toList

end Selector
end EntityRules
