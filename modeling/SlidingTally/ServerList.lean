import SlidingTally.Journal
import SlidingTally.Value.Access

/-!
# Server lists

Store nodes are configured as `host:port` entries. `ServerList.parse` keeps the well-formed
ones in order and logs each of the others once; `ServerList.split` takes a comma-separated
setting apart.
-/

namespace SlidingTally

structure ServerAddress where
  host : String
  port : Nat
deriving DecidableEq

def ServerAddress.text (address : ServerAddress) : String :=
  address.host ++ ":" ++ toString address.port

namespace ServerList

/-- The port that a text denotes: any numeral of a whole number from 1 to 65535. -/
def port? (text : List Char) : Option Nat :=
  match (Numeral.read (String.ofList text)).toInt? with
  | some port => if 0 < port ∧ port ≤ 65535 then some port.toNat else none
  | none => none

def address? (entry : String) : Option ServerAddress :=
  match Text.fields ':' (Text.trim entry.toList) with
  | [host, port] =>
    if host = [] then none
    else (port? port).map fun port => ⟨String.ofList host, port⟩
  | _ => none

def complaint (entry : String) : LogLine :=
  ⟨.error, .serverList, s!"Invalid server {entry} in counter store server list"⟩

/-- The addresses of a list, with a log line for each entry that is none. -/
def parse : List String → List ServerAddress × List LogLine
  | [] => ([], [])
  | entry :: rest =>
    let (addresses, lines) := parse rest
    match address? entry with
    | some address => (address :: addresses, lines)
    | none => (addresses, complaint entry :: lines)

/-- The trimmed entries of a comma-separated text, without empty ones. -/
def split (text : String) : List String :=
  ((Text.fields ',' text.toList).map Text.trim).filter (· ≠ []) |>.map String.ofList

-- ---------------------------------------------------------------------------
-- Untyped settings
-- ---------------------------------------------------------------------------

def entryText : Value → Except Fault String
  | .text entry => .ok entry
  | .undefined => .error (Value.noProperty "undefined" "trim")
  | .null => .error (Value.noProperty "null" "trim")
  | _ => .error (.wrongType "entry.trim is not a function")

def parseEntries {σ : Type} : List Value → Action LogLine Fault σ (List ServerAddress)
  | [] => pure []
  | entry :: rest => fun s =>
    match entryText entry with
    | .error fault => ⟨.error fault, s, []⟩
    | .ok text =>
      let others := parseEntries rest s
      ⟨others.reply.map ((parse [text]).1 ++ ·), others.state,
        (parse [text]).2 ++ others.journal⟩

theorem parse_cons (entry : String) (rest : List String) :
    parse (entry :: rest) =
      ((parse [entry]).1 ++ (parse rest).1, (parse [entry]).2 ++ (parse rest).2) := by
  simp only [parse]
  cases address? entry <;> rfl

theorem parseEntries_texts {σ : Type} (texts : List String) (s : σ) :
    parseEntries (texts.map .text) s = ⟨.ok (parse texts).1, s, (parse texts).2⟩ := by
  induction texts with
  | nil => rfl
  | cons entry rest ih =>
    rw [parse_cons]
    simp only [List.map_cons, parseEntries, entryText, ih]
    rfl

def parseValue {σ : Type} (servers : Value) : Action LogLine Fault σ (List ServerAddress) := do
  parseEntries (← Action.ofExcept (servers.iterate "servers"))

def splitValue (value : Value) : Except Fault (List String) :=
  match value with
  | .text s => .ok (if s.isEmpty then [] else split s)
  | value =>
    if value.truthy then .error (.wrongType "value.split is not a function") else .ok []

end ServerList

end SlidingTally
