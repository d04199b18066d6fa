import LabelPlaylists.Yaml.Cursor

/-!
A terminal that shows no colours: what is written goes to the output and to the error output without
the codes that set colours, and lines of input are given beforehand and shown as they are read.
-/

namespace LabelPlaylists.Simulation

-- The rest behind the parameters and the letter of a colour code.
def afterCode? (s : List Char) : Option (List Char) :=
  match s.dropWhile fun c => c = ';' || c = '?' || c.isDigit with
  | c :: rest => if c.isAlpha then some rest else none
  | [] => none

-- Without colour codes; `skip` characters belong to one.
def withoutCodes : Nat → List Char → List Char
  | _, [] => []
  | skip + 1, _ :: rest => withoutCodes skip rest
  | 0, c :: rest =>
    if c = '\x1b' then
      match rest with
      | '[' :: code =>
        match afterCode? code with
        | some behind => withoutCodes (rest.length - behind.length) rest
        | none => c :: withoutCodes 0 rest
      | _ => c :: withoutCodes 0 rest
    else c :: withoutCodes 0 rest

structure Terminal where
  output : String := ""
  errors : String := ""
  input : List String := []
deriving Repr

namespace Terminal

def ofInput (s : String) : Terminal :=
  let lines := (String.ofList (Yaml.unifiedLines s.toList)).splitOn "\n"
  { input := if lines.getLast? = some "" then lines.dropLast else lines }

def line (s : String) : String := String.ofList (withoutCodes 0 s.toList) ++ "\n"

def print (s : String) (t : Terminal) : Terminal := { t with output := t.output ++ line s }

def complain (s : String) (t : Terminal) : Terminal := { t with errors := t.errors ++ line s }

def prompt (s : String) (t : Terminal) : Option String × Terminal := go t.output t.input
where
  go (output : String) : List String → Option String × Terminal
    | [] => (none, { t with output := output ++ s ++ ": ", input := [] })
    | answer :: rest =>
      let output := output ++ s ++ ": " ++ answer ++ "\n"
      if answer = "" then go output rest else (some answer, { t with output, input := rest })

end Terminal

end LabelPlaylists.Simulation
