import ContainerInit.Shell.Sum

/-!
# Formats of the shell

What `echo` and `printf` write.

- **Escapes** (`unescape`): characters that are named after a backslash.
- **Formats** (`Format.read`): text with places for arguments (`Slot`). A format is used again as
  long as there are arguments left (`Format.apply`); missing ones are empty, or zero.
-/

namespace ContainerInit.Shell

/-- The text that is written for escapes, and whether writing stops there. Octal numbers have three
digits, and one more zero before them where `zero`. -/
def unescapeWith (zero : Bool) : Nat → List Char → List Char × Bool
  | fuel + 1, '\\' :: c :: rest =>
    let add (d : Char) (rest : List Char) : List Char × Bool :=
      let (t, stop) := unescapeWith zero fuel rest
      (d :: t, stop)
    match c with
    | 'c' => ([], true)
    | 'a' => add '\x07' rest
    | 'b' => add '\x08' rest
    | 'f' => add '\x0c' rest
    | 'n' => add '\n' rest
    | 'r' => add '\r' rest
    | 't' => add '\t' rest
    | 'v' => add '\x0b' rest
    | '\\' => add '\\' rest
    | _ =>
      let isOctal (c : Char) : Bool := '0' ≤ c && c ≤ '7'
      if isOctal c then
        let cs := if zero && c == '0' then rest else c :: rest
        let digits := (cs.take 3).takeWhile isOctal
        add (Char.ofNat (digits.foldl (fun n d => 8 * n + Sum.digit d) 0)) (cs.drop digits.length)
      else
        let (t, stop) := unescapeWith zero fuel (c :: rest)
        ('\\' :: t, stop)
  | fuel + 1, c :: rest =>
    let (t, stop) := unescapeWith zero fuel rest
    (c :: t, stop)
  | _, _ => ([], false)

/-- The text that is written for the escapes of a text, and whether writing stops there. -/
def unescape (zero : Bool) (text : String) : String × Bool :=
  let (t, stop) := unescapeWith zero text.length text.toList
  (String.ofList t, stop)

/-- What `echo` writes; escapes count. -/
def echoText (args : List String) : String :=
  let (newline, args) := match args with
    | "-n" :: args => (false, args)
    | args => (true, args)
  let (text, stop) := unescape true (String.intercalate " " args)
  text ++ if newline && !stop then "\n" else ""

/-- A place for an argument. -/
structure Slot where
  flags : List Char
  width : Nat
  precision : Option Nat
  conversion : Char

/-- A part of a format. -/
inductive Format where
  | literal (text : String)
  | place (slot : Slot)
  /-- Writing stops. -/
  | ending

namespace Format

/-- Conversions to numbers. -/
def isNumeric (c : Char) : Bool :=
  ['d', 'i', 'u', 'o', 'x', 'X'].contains c

/-- Reads a place for an argument after its percent sign. -/
def readSlot (cs : List Char) : Except String (Slot × List Char) :=
  let isFlag (c : Char) : Bool := ['-', '+', ' ', '0', '#'].contains c
  let flags := cs.takeWhile isFlag
  let rest := cs.dropWhile isFlag
  let width := rest.takeWhile Char.isDigit
  let rest := rest.dropWhile Char.isDigit
  let (precision, rest) := match rest with
    | '.' :: rest =>
      (some ((decimal? (String.ofList (rest.takeWhile Char.isDigit))).getD 0),
        rest.dropWhile Char.isDigit)
    | rest => (none, rest)
  match rest with
  | c :: rest =>
    if isNumeric c || c == 's' || c == 'c' || c == 'b' then
      .ok (⟨flags, (decimal? (String.ofList width)).getD 0, precision, c⟩, rest)
    else .error ("%" ++ String.ofList [c] ++ ": invalid directive")
  | [] => .error "%: missing conversion"

/-- The parts of a format, with as much fuel as it has characters. -/
def readWith : Nat → List Char → Except String (List Format)
  | _, [] => .ok []
  | 0, _ => .ok []
  | fuel + 1, '%' :: '%' :: rest => do return .literal "%" :: (← readWith fuel rest)
  | fuel + 1, '%' :: rest => do
    let (slot, rest) ← readSlot rest
    return .place slot :: (← readWith fuel rest)
  | fuel + 1, cs => do
    let (text, stop) := unescape false (String.ofList (cs.takeWhile (· != '%')))
    let parts ← readWith fuel (cs.dropWhile (· != '%'))
    return .literal text :: if stop then [.ending] else parts

/-- The parts of a format. -/
def read (text : String) : Except String (List Format) :=
  readWith text.length text.toList

/-- The digits of a number in a base. -/
def digits (n base : Nat) (upper : Bool) : List Char :=
  let ds := Nat.toDigits base n
  if upper then ds.map Char.toUpper else ds

/-- Fills a text up to a width. -/
def fill (slot : Slot) (sign text : List Char) : String :=
  let missing := slot.width - (sign.length + text.length)
  String.ofList <|
    if slot.flags.contains '-' then sign ++ text ++ List.replicate missing ' '
    else if slot.flags.contains '0' && isNumeric slot.conversion && slot.precision.isNone then
      sign ++ List.replicate missing '0' ++ text
    else List.replicate missing ' ' ++ sign ++ text

/-- The text of a number at a place. -/
def showNumber (slot : Slot) (n : Int) : String :=
  let signed := slot.conversion == 'd' || slot.conversion == 'i'
  let magnitude := if signed then n.natAbs else (n.emod (.ofNat UInt64.size)).toNat
  let sign :=
    if !signed then []
    else if n < 0 then ['-']
    else if slot.flags.contains '+' then ['+']
    else if slot.flags.contains ' ' then [' ']
    else []
  let base := match slot.conversion with
    | 'o' => 8
    | 'x' | 'X' => 16
    | _ => 10
  let ds := digits magnitude base (slot.conversion == 'X')
  let zeros := (slot.precision.getD 0) - ds.length
  fill slot sign (List.replicate zeros '0' ++ ds)

/-- The number that an argument stands for, and whether all of it is one. -/
def numberOf (arg : String) : Int × Option String :=
  let (negative, digits) := match arg.toList with
    | '-' :: rest => (true, rest)
    | '+' :: rest => (false, rest)
    | cs => (false, cs)
  match digits with
  | '\'' :: c :: _ | '\"' :: c :: _ => (c.toNat, none)
  | _ =>
    let whole := if digits.head?.any Char.isDigit then Sum.constant? digits else none
    match whole with
    | some n => (if negative then -n else n, none)
    | none =>
      let start := digits.takeWhile Char.isDigit
      if start.isEmpty then
        (0, if arg.isEmpty then none else some (arg ++ ": expected numeric value"))
      else
        let n := (decimal? (String.ofList start)).getD 0
        (if negative then -(n : Int) else n, some (arg ++ ": not completely converted"))

/-- What a format writes when it is used once: the text, what is wrong, the arguments left, and
whether writing stops. -/
structure Written where
  text : String := ""
  faults : List String := []
  args : List String
  stopped : Bool := false

/-- Writes a part of a format. -/
def step (w : Written) : Format → Written
  | .literal t => if w.stopped then w else { w with text := w.text ++ t }
  | .ending => { w with stopped := true }
  | .place slot =>
    if w.stopped then w
    else
      let arg := w.args.headD ""
      let w := { w with args := w.args.drop 1 }
      let cut (t : List Char) : List Char :=
        match slot.precision with
        | some n => t.take n
        | none => t
      match slot.conversion with
      | 's' => { w with text := w.text ++ fill slot [] (cut arg.toList) }
      | 'c' => { w with text := w.text ++ fill slot [] (arg.toList.take 1) }
      | 'b' =>
        let (t, stop) := unescape true arg
        { w with text := w.text ++ fill slot [] (cut t.toList), stopped := stop }
      | _ =>
        let (n, fault) := numberOf arg
        { w with text := w.text ++ showNumber slot n, faults := w.faults ++ fault.toList }

/-- A format takes an argument. -/
def takesArguments (parts : List Format) : Bool :=
  parts.any fun
    | .place _ => true
    | _ => false

/-- What a format writes, used again as long as there are arguments. -/
def applyWith (parts : List Format) : Nat → Written → Written
  | 0, w => w
  | fuel + 1, w =>
    let w := parts.foldl step w
    if w.stopped || w.args.isEmpty || !takesArguments parts then w else applyWith parts fuel w

/-- What a format writes for arguments. -/
def apply (parts : List Format) (args : List String) : Written :=
  applyWith parts (args.length + 1) { args }

end Format

end ContainerInit.Shell
