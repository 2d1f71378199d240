import Turnery.Shell.Utility.Choice

/-!
# Copying blocks

Blocks of bytes are copied from one place to another, some of them or all.
-/

namespace Turnery.Shell.Utility

open Turnery.Files

namespace Block

structure Plan where
  source : Octets
  target : Option Octets
  inputSize : Nat
  outputSize : Nat
  count : Option Nat
  skipped : Nat
  placed : Nat
  /-- What stands behind the copied bytes in an old target is kept. -/
  keepsTail : Bool
  isSilent : Bool

/-- The plan with one more word taken into account, or a complaint. -/
def Plan.extend (p : Plan) (word : Octets) : Except String Plan := do
  let key := word.takeWhile (· != '=')
  let value := word.drop (key.length + 1)
  let number : Except String Nat :=
    match size? value with
    | some n => .ok n
    | none => .error ("invalid number: '" ++ Octets.toText value ++ "'")
  match Octets.toText key with
  | "if" => .ok { p with source := value }
  | "of" => .ok { p with target := some value }
  | "bs" => do
    let n ← number
    .ok { p with inputSize := n, outputSize := n }
  | "ibs" => do .ok { p with inputSize := ← number }
  | "obs" => do .ok { p with outputSize := ← number }
  | "count" => do .ok { p with count := some (← number) }
  | "skip" => do .ok { p with skipped := ← number }
  | "seek" => do .ok { p with placed := ← number }
  | "conv" => .ok { p with keepsTail := (value.splitOn ',').contains "notrunc".toList }
  | "status" => .ok { p with isSilent := value == "none".toList }
  | "iflag" | "oflag" => .ok p
  | _ =>
    .error ("unrecognized operand '" ++ Octets.toText word ++
      "'\nTry 'dd --help' for more information.")

def blocks (size bytes : Nat) : String :=
  Number.natText (bytes / size) ++ "+" ++ (if bytes % size == 0 then "0" else "1")

def remark (p : Plan) (bytes : Nat) : String :=
  blocks p.inputSize bytes ++ " records in\n" ++ blocks p.outputSize bytes ++ " records out\n" ++
    Number.natText bytes ++ (if bytes == 1 then " byte" else " bytes") ++ " copied\n"

def source (p : Plan) : Act (Except String Octets) :=
  if p.source == "/dev/zero".toList then
    pure
      (.ok (List.replicate (p.count.elim Opening.endlessSize fun n => (n + p.skipped) * p.inputSize)
      '\x00'))
  else load p.source

/-- A target after bytes have been copied to it. -/
def placedIn (p : Plan) (old bytes : Octets) : Octets :=
  let offset := p.placed * p.outputSize
  let front := old.take offset
  let front := front ++ List.replicate (offset - front.length) '\x00'
  front ++ bytes ++ (if p.keepsTail then old.drop (offset + bytes.length) else [])

end Block

def copyBlocks : Utility := plain fun name operands => do
  match operands.foldlM Block.Plan.extend ⟨['-'], none, 512, 512, none, 0, 0, false, false⟩ with
  | .error message => complain name message
  | .ok p =>
    if p.inputSize == 0 || p.outputSize == 0 then complain name "invalid number: '0'"
    else
      let before := (← get).input
      match ← Block.source p with
      | .error reason => complain name ("failed to open " ++ quoted p.source ++ ": " ++ reason)
      | .ok text => do
        let text := text.drop (p.skipped * p.inputSize)
        let bytes := p.count.elim text fun n => text.take (n * p.inputSize)
        if isInput p.source && before.isFile then
          modify fun s => s.leaveInput (text.drop bytes.length)
        match p.target with
        | none => Act.send 1 bytes
        | some path => do
          let w := (← get).workspace
          let old := ((w.read (Octets.toText path)).map Octets.ofBytes).toOption.getD []
          match ← save false path (Block.placedIn p old bytes) with
          | .ok () => pure ()
          | .error e => complain name ("failed to open " ++ quoted path ++ ": " ++ e.reason)
        if !p.isSilent then Act.send 2 (Octets.ofText (Block.remark p bytes.length))

end Turnery.Shell.Utility
