import SlidingTally.Rehearsal.Script
import SlidingTally.Store.Memory
import SlidingTally.Store.Redis
import SlidingTally.Store.Mongo

/-!
# Scripted stores and clients

Three collaborators that follow a script: a wrapper around the in-memory store, which does
the real call where the script has nothing or says so, and clients for the Redis and the
MongoDB store, which write down every command and have a default reply for each.
-/

namespace SlidingTally.Rehearsal

-- ---------------------------------------------------------------------------
-- In memory
-- ---------------------------------------------------------------------------

namespace ScriptedMemory

structure State where
  inner : MemoryStore.State := {}
  script : Script := []

def reply (answer : Answer) (call : StoreCall) : Except Fault Value :=
  match call with
  | .increment key => answer.replyFor key.value
  | .addIfAbsent key _ _ => answer.replyFor key.value
  | .touch key _ => answer.replyFor key.value
  | .set key _ _ => answer.replyFor key.value
  | .get key => answer.replyFor key.value
  | _ => answer.plainReply

def store (options : MemoryStore.Options) : CounterStore State := fun now call s =>
  let (answer, script) := s.script.next call.name
  let real := (MemoryStore.store options now call).onPart State.inner
    (fun inner s => { s with inner := inner }) { s with script := script }
  match answer with
  | none => real
  | some .pass => real
  | some answer => ⟨reply answer call, { s with script := script }, []⟩

end ScriptedMemory

-- ---------------------------------------------------------------------------
-- Redis
-- ---------------------------------------------------------------------------

namespace ScriptedRedis

open RedisStore (Command)

structure State where
  status : String := "ready"
  script : Script := []
  /-- The commands so far, the latest first. -/
  sent : List Command := []

def method : Command → String
  | .connect => "connect"
  | .ping => "ping"
  | .quit => "quit"
  | .disconnect => "disconnect"
  | .onError => "on"
  | .incr _ => "incr"
  | .set _ _ _ _ => "set"
  | .pexpire _ _ => "pexpire"
  | .get _ => "get"
  | .mget _ => "mget"

def reply (answer : Answer) (command : Command) : Except Fault Value :=
  match command, answer with
  | .incr key, answer => answer.replyFor (.text key)
  | .set key _ _ _, answer => answer.replyFor (.text key)
  | .pexpire key _, answer => answer.replyFor (.text key)
  | .get key, answer => answer.replyFor (.text key)
  | .mget keys, .byKey answers => do
    return .list (← (keys.items?.getD []).mapM fun key => do
      Answer.answerFor answers (← key.asText))
  | _, answer => answer.plainReply

/-- What the client replies without a script: every key is new and then absent. -/
def defaultReply : Command → Value
  | .connect => .null
  | .ping => .text "PONG"
  | .quit => .text "OK"
  | .disconnect => .null
  | .onError => .null
  | .incr _ => .number 1
  | .set _ _ _ _ => .text "OK"
  | .pexpire _ _ => .number 1
  | .get _ => .null
  | .mget (.bytes octets) => .bytes (octets.map fun _ => 0)
  | .mget keys => .list ((keys.items?.getD []).map fun _ => .null)

def client (isCluster : Bool) : RedisStore.Client State where
  isCluster := isCluster
  status := State.status
  send := fun _ command s =>
    let (answer, script) := s.script.next (method command)
    let answer := match answer with
      | some answer => reply answer command
      | none => .ok (defaultReply command)
    (answer, { s with script := script, sent := command :: s.sent })

end ScriptedRedis

-- ---------------------------------------------------------------------------
-- MongoDB
-- ---------------------------------------------------------------------------

namespace ScriptedMongo

open MongoStore (Command KeyFilter)

structure State where
  script : Script := []
  /-- The commands so far, the latest first. -/
  sent : List Command := []

def method : Command → String
  | .defineModel _ => "model"
  | .createIndex => "createIndex"
  | .findOneAndIncrement _ _ => "findOneAndUpdate"
  | .create _ _ _ => "create"
  | .updateOne _ _ _ _ => "updateOne"
  | .findOne _ _ => "findOne"
  | .find _ _ => "find"

def document? (key value : Value) : Option Value :=
  if value.isNull then none else some (.record [("_id", key), ("value", value)])

def documentFor (answers : List (String × Except Fault Value)) (key : Value) :
    Except Fault (Option Value) := do
  return document? key (← Answer.answerFor answers (← key.asText))

def documents (answers : List (String × Except Fault Value)) (keys : Value) :
    Except Fault Value := do
  return .list ((← (keys.items?.getD []).mapM (documentFor answers)).filterMap id)

def replyByKey (answers : List (String × Except Fault Value)) (filter : KeyFilter) :
    Except Fault Value :=
  match filter with
  | .one key => do return (← documentFor answers key).getD .null
  | .among keys => documents answers keys

def reply (answer : Answer) (command : Command) : Except Fault Value :=
  match command, answer with
  | .findOneAndIncrement filter _, .byKey answers => replyByKey answers filter.keys
  | .findOne filter _, .byKey answers => replyByKey answers filter.keys
  | .find filter _, .byKey answers => replyByKey answers filter.keys
  | _, answer => answer.plainReply

def defaultReply : Command → Value
  | .defineModel _ => .null
  | .createIndex => .text "expiresAt_1"
  | .findOneAndIncrement _ _ => .null
  | .create _ _ _ => .record []
  | .updateOne _ _ _ _ => .record [("matchedCount", .number .zero)]
  | .findOne _ _ => .null
  | .find _ _ => .list []

def client : MongoStore.Client State where
  collection := "fake_collection"
  send := fun _ command s =>
    let (answer, script) := s.script.next (method command)
    let answer := match answer with
      | some answer => reply answer command
      | none => .ok (defaultReply command)
    (answer, { s with script := script, sent := command :: s.sent })

end ScriptedMongo

end SlidingTally.Rehearsal
