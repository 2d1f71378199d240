import Turnery.Shell.Utility.Display

/-!
# Showing bytes

Bytes are shown as numbers or as signs, in rows that begin with the place of their first byte.
-/

namespace Turnery.Shell.Utility

namespace Dump

structure Style where
  /-- Characters, or numbers without or with a sign, in octal or hexadecimal digits. -/
  kind : Char
  /-- How many bytes make a number. -/
  size : Nat
  /-- The bytes are shown as signs too. -/
  showsSigns : Bool

/-- The styles that a text writes: a letter, a size, and a sign that bytes are shown as signs
too. -/
def styles (text : Octets) : List Style :=
  (text.foldl (fun styles c =>
    match styles with
    | s :: others =>
      if c.isDigit then { s with size := Number.digitValue c } :: others
      else if c == 'z' then { s with showsSigns := true } :: others
      else ⟨c, if c == 'c' || c == 'a' then 1 else 4, false⟩ :: s :: others
    | [] => [⟨c, if c == 'c' || c == 'a' then 1 else 4, false⟩]) []).reverse

/-- The digits of a number, so many at least. -/
def padded (base width n : Nat) : Octets :=
  let ds := Nat.toDigits base n
  List.replicate (width - ds.length) '0' ++ ds

def sign (c : Char) : Octets :=
  match c with
  | '\x00' => ['\\', '0']
  | '\x07' => ['\\', 'a']
  | '\x08' => ['\\', 'b']
  | '\t' => ['\\', 't']
  | '\n' => ['\\', 'n']
  | '\x0b' => ['\\', 'v']
  | '\x0c' => ['\\', 'f']
  | '\r' => ['\\', 'r']
  | c => if isHidden c then padded 8 3 c.toNat else [c]

/-- How wide a number of some bytes is shown. -/
def Style.width (s : Style) : Nat :=
  match s.kind with
  | 'o' => (s.size * 8 + 2) / 3
  | 'x' => s.size * 2
  | 'u' => (Number.digits (Nat.pow 256 s.size - 1)).length
  | 'd' => (Number.digits (Nat.pow 256 s.size / 2)).length + 1
  | _ => 3

/-- The number of some bytes, of which the first counts least. -/
def value (bytes : Octets) : Nat :=
  bytes.foldr (fun c n => c.toNat + 256 * n) 0

def Style.cell (s : Style) (bytes : Octets) : Octets :=
  let n := value bytes
  let body := match s.kind with
    | 'o' => padded 8 s.width n
    | 'x' => padded 16 s.width n
    | 'u' => Number.digits n
    | 'd' => if Nat.pow 256 s.size / 2 ≤ n then '-' :: Number.digits (Nat.pow 256 s.size - n)
      else Number.digits n
    | _ => sign (bytes.headD '\x00')
  List.replicate (s.width - body.length) ' ' ++ body

/-- Items in groups of a size, at most so many. -/
def chunks (size : Nat) : Nat → Octets → List Octets
  | 0, _ => []
  | more + 1, text =>
    if text.isEmpty then [] else text.take size :: chunks size more (text.drop size)

/-- How wide a row of some bytes is shown. -/
def Style.rowWidth (s : Style) (count : Nat) : Nat :=
  (s.width + 1) * (count / s.size)

/-- A row of bytes in a style; the columns of all styles stand below each other, and the row may be
shown as signs behind. -/
def Style.row (s : Style) (widest count : Nat) (bytes : Octets) : Octets :=
  let cellWidth := widest / (count / s.size)
  let cells := (chunks s.size (bytes.length + 1) bytes).flatMap fun piece =>
    let cell := ' ' :: s.cell piece
    List.replicate (cellWidth - cell.length) ' ' ++ cell
  let signs := bytes.map fun c => if isHidden c then '.' else c
  if s.showsSigns then
    cells ++ List.replicate (widest - cells.length) ' ' ++ ' ' :: ' ' :: '>' :: signs ++ ['<']
  else cells

def place (radix : Char) (n : Nat) : Octets :=
  match radix with
  | 'n' => []
  | 'd' => padded 10 7 n
  | 'x' => padded 16 6 n
  | _ => padded 8 7 n

/-- Rows, given the place of the first and the row before; rows that repeat are left out. -/
def rows (radix : Char) (styles : List Style) (widest count : Nat) (showsAll : Bool) :
    Nat → Option Octets → Bool → List Octets → Octets
  | _, _, _, [] => []
  | n, previous, isLeftOut, row :: rest =>
    let isRepeated := !showsAll && previous == some row && row.length == count && !rest.isEmpty
    if isRepeated then
      (if isLeftOut then [] else ['*', '\n']) ++
        rows radix styles widest count showsAll (n + row.length) (some row) true rest
    else
      let blank := List.replicate (place radix n).length ' '
      let lines := (styles.zipIdx 0).flatMap fun (s, i) =>
        (if i == 0 then place radix n else blank) ++ s.row widest count row ++ ['\n']
      lines ++ rows radix styles widest count showsAll (n + row.length) (some row) false rest

def vocabulary : Vocabulary where
  flags := "abcdfiloshvx"
  valued := "AjNtwS"
  words := [("address-radix", 'A'), ("skip-bytes", 'j'), ("read-bytes", 'N'), ("format", 't'),
    ("output-duplicates", 'v')]
  isOrdered := false

def stylesOf (letter : Char) (value : Octets) : List Style :=
  match letter with
  | 't' => styles value
  | 'b' => [⟨'o', 1, false⟩]
  | 'c' => [⟨'c', 1, false⟩]
  | 'd' => [⟨'u', 2, false⟩]
  | 'o' => [⟨'o', 2, false⟩]
  | 'x' | 'h' => [⟨'x', 2, false⟩]
  | 's' => [⟨'d', 2, false⟩]
  | 'i' => [⟨'d', 4, false⟩]
  | 'l' => [⟨'d', 8, false⟩]
  | _ => []

end Dump

def dump : Utility :=
  choosing Dump.vocabulary 1 fun name c => do
    let texts ← loadAll name (orInput c.operands)
    let text := texts.flatMap Prod.snd
    let skipped := ((c.value? 'j').bind size?).getD 0
    let text := text.drop skipped
    let text := ((c.value? 'N').bind size?).elim text text.take
    let styles := c.options.flatMap fun (letter, value) => Dump.stylesOf letter value
    let styles := if styles.isEmpty then [⟨'o', 2, false⟩] else styles
    let count := max 1 (((c.value? 'w').bind size?).getD 16)
    let widest := styles.foldl (fun n s => max n (s.rowWidth count)) 0
    let radix := ((c.value? 'A').getD ['o']).headD 'o'
    let pieces := Dump.chunks count (text.length + 1) text
    let finish := Dump.place radix (skipped + text.length)
    Act.send 1 (Dump.rows radix styles widest count (c.has 'v') skipped none false pieces ++
      (if finish.isEmpty then [] else finish ++ ['\n']))

end Turnery.Shell.Utility
