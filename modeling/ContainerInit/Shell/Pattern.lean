/-!
# Patterns of the shell

A pattern stands for texts: `*` for any text, `?` for any character, and brackets for one of the
characters between them. A character that was quoted stands for itself.

- **Matching** (`Pattern.accepts`): a pattern accepts a text as a whole.
- **Trimming** (`Pattern.trim`): takes away the shortest or longest end or beginning that is
  accepted.
-/

namespace ContainerInit.Shell

/-- A character of a pattern; `quoted` tells that it stands for itself. -/
structure Mark where
  char : Char
  quoted : Bool
  deriving DecidableEq

/-- A pattern. -/
abbrev Pattern := List Mark

namespace Pattern

/-- One of the members between brackets accepts a character. -/
def hasMember : List Mark → Char → Bool
  | low :: ⟨'-', false⟩ :: high :: rest, c =>
    (low.char ≤ c && c ≤ high.char) || hasMember rest c
  | m :: rest, c => m.char == c || hasMember rest c
  | [], _ => false

/-- What stands between brackets, and what stands after them. A bracket that closes right after the
opening one is a member. -/
def brackets? (p : Pattern) : Option ((Char → Bool) × Pattern) :=
  let isSign (m : Mark) : Bool := !m.quoted && (m.char == '!' || m.char == '^')
  let isEnd (m : Mark) : Bool := !m.quoted && m.char == ']'
  let negated := p.head?.any isSign
  let p := if negated then p.drop 1 else p
  let members := p.take 1 ++ (p.drop 1).takeWhile (!isEnd ·)
  match p.drop members.length with
  | _ :: rest => some (fun c => hasMember members c != negated, rest)
  | [] => none

/-- All ends of a text, the longest first. -/
def ends : List Char → List (List Char)
  | [] => [[]]
  | c :: cs => (c :: cs) :: ends cs

/-- A pattern accepts a text, with as much fuel as the pattern has characters. -/
def acceptsWith : Nat → Pattern → List Char → Bool
  | _, [], text => text.isEmpty
  | 0, _, _ => false
  | fuel + 1, m :: p, text =>
    if !m.quoted && m.char == '*' then (ends text).any (acceptsWith fuel p)
    else
      match text with
      | [] => false
      | c :: text =>
        if m.quoted then m.char == c && acceptsWith fuel p text
        else if m.char == '?' then acceptsWith fuel p text
        else if m.char == '[' then
          match brackets? p with
          | some (member, p) => member c && acceptsWith fuel p text
          | none => c == '[' && acceptsWith fuel p text
        else m.char == c && acceptsWith fuel p text

/-- A pattern accepts a text. -/
def accepts (p : Pattern) (text : String) : Bool :=
  acceptsWith p.length p text.toList

/-- A text without the end or the beginning that a pattern accepts. -/
def trim (p : Pattern) (atEnd longest : Bool) (text : String) : String :=
  let cs := text.toList
  let sizes := List.range (cs.length + 1)
  let sizes := if longest then sizes.reverse else sizes
  let part (n : Nat) : List Char := if atEnd then cs.drop (cs.length - n) else cs.take n
  match sizes.find? fun n => acceptsWith p.length p (part n) with
  | some n => String.ofList (if atEnd then cs.take (cs.length - n) else cs.drop n)
  | none => text

end Pattern

end ContainerInit.Shell
