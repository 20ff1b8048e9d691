import Mathlib.Logic.Function.Basic
import SlidingTally.Proofs.Action.Triple
import SlidingTally.Proofs.Number.Digits
import SlidingTally.Proofs.Store.Entries
import SlidingTally.Store.Redis

/-!
# An ideal Redis server

One map of texts with an expiry each, which serves every command at once, by the clock of its
callers. `Answers` says of a client, with whatever state, that it answers as such a server does;
the store over it then reads and writes the map. Main statements: `evaluates_increment`,
`evaluates_touch` and `evaluates_getMulti`.
-/

namespace SlidingTally.RedisServer

open SlidingTally.Action (Evaluates)
open Binary64 (ofNat is_ofNat)
open RedisStore (Command Client Settings)

-- ---------------------------------------------------------------------------
-- The server
-- ---------------------------------------------------------------------------

structure Entry where
  text : String
  /-- Epoch milliseconds, none for no expiry. -/
  expiresAt : Option Int

abbrev Entries : Type := String → Option Entry

def clockAt (now : Binary64) : Int := now.floor.toInt?.getD 0

/-- An entry is absent from the instant of its expiry on. -/
def Entry.isPresent (entry : Entry) (clock : Int) : Bool := entry.expiresAt.all (clock < ·)

def find? (entries : Entries) (clock : Int) (key : String) : Option Entry :=
  (entries key).filter (·.isPresent clock)

def put (entries : Entries) (key : String) (entry : Entry) : Entries :=
  Function.update entries key (some entry)

def text? (entries : Entries) (clock : Int) (key : String) : Option Value :=
  (find? entries clock key).map fun entry => .text entry.text

def read (entries : Entries) (clock : Int) (key : String) : Value :=
  (text? entries clock key).getD .null

/-- Integers are kept in 64 bits, one of them for the sign. -/
def wordLimit : Int := 2 ^ 63

def numeral (n : Int) : String := String.ofList (intNumeral n)

/-- The integer that a text is the numeral of, written in no other way. -/
def integer? (text : String) : Option Int :=
  (Numeral.signedDigits? text.toList).filter fun n =>
    numeral n = text && -wordLimit ≤ n && n < wordLimit

def notInteger : Fault := .plain "ERR value is not an integer or out of range"

def overflow : Fault := .plain "ERR increment or decrement would overflow"

def invalidExpiry : Fault := .plain "ERR invalid expire time in 'set' command"

def missingKeys : Fault := .plain "ERR wrong number of arguments for 'mget' command"

/-- Adds one to an integer. An absent key is created without expiry. -/
def increment (entries : Entries) (clock : Int) (key : String) : Except Fault Value × Entries :=
  match find? entries clock key with
  | none => (.ok (.number 1), put entries key ⟨numeral 1, none⟩)
  | some entry =>
    match integer? entry.text with
    | none => (.error notInteger, entries)
    | some n =>
      if n + 1 < wordLimit then
        (.ok (.number (.ofInt (n + 1))), put entries key { entry with text := numeral (n + 1) })
      else (.error overflow, entries)

def instantAfter (clock : Int) (milliseconds : Binary64) : Except Fault Int :=
  match milliseconds.toInt? with
  | some n => .ok (clock + n)
  | none => .error notInteger

/-- The expiry of a new value, if it comes with one; it has to lie ahead. -/
def newExpiry (clock : Int) : Option Binary64 → Except Fault (Option Int)
  | none => .ok none
  | some milliseconds => do
    let instant ← instantAfter clock milliseconds
    if clock < instant then return some instant
    throw invalidExpiry

def set (entries : Entries) (clock : Int) (key : String) (value : Value)
    (expiry : Option Binary64) (onlyIfAbsent : Bool) : Except Fault Value × Entries :=
  let made : Except Fault Entry := do return ⟨← value.asText, ← newExpiry clock expiry⟩
  match made with
  | .error fault => (.error fault, entries)
  | .ok entry =>
    if onlyIfAbsent && (find? entries clock key).isSome then (.ok .null, entries)
    else (.ok (.text "OK"), put entries key entry)

def pexpire (entries : Entries) (clock : Int) (key : String) (milliseconds : Binary64) :
    Except Fault Value × Entries :=
  match instantAfter clock milliseconds with
  | .error fault => (.error fault, entries)
  | .ok instant =>
    match find? entries clock key with
    | none => (.ok (.number 0), entries)
    | some entry => (.ok (.number 1), put entries key { entry with expiresAt := some instant })

def readMany (entries : Entries) (clock : Int) (keys : Value) : Except Fault Value :=
  match keys with
  | .list [] => .error missingKeys
  | .list items => do return .list ((← items.mapM Value.asText).map (read entries clock))
  | _ => .error missingKeys

def serve (now : Binary64) (command : Command) (entries : Entries) :
    Except Fault Value × Entries :=
  match command with
  | .connect => (.ok .undefined, entries)
  | .ping => (.ok (.text "PONG"), entries)
  | .quit => (.ok (.text "OK"), entries)
  | .disconnect => (.ok .undefined, entries)
  | .onError => (.ok .undefined, entries)
  | .incr key => increment entries (clockAt now) key
  | .set key value expiry onlyIfAbsent => set entries (clockAt now) key value expiry onlyIfAbsent
  | .pexpire key milliseconds => pexpire entries (clockAt now) key milliseconds
  | .get key => (.ok (read entries (clockAt now) key), entries)
  | .mget keys => (readMany entries (clockAt now) keys, entries)

/-- A client that answers as a server does; `entries` is what the server holds. -/
structure Answers (client : Client κ) (entries : κ → Entries) : Prop where
  reply : ∀ now command s, (client.send now command s).1 = (serve now command (entries s)).1
  after : ∀ now command s,
    entries (client.send now command s).2 = (serve now command (entries s)).2

def client (isCluster : Bool) : Client Entries where
  isCluster := isCluster
  status := fun _ => "ready"
  send := serve

theorem answers_client (isCluster : Bool) : Answers (client isCluster) id :=
  ⟨fun _ _ _ => rfl, fun _ _ _ => rfl⟩

-- ---------------------------------------------------------------------------
-- Numerals and instants
-- ---------------------------------------------------------------------------

theorem numeral_natCast (n : Nat) : numeral n = Numeral.ofNat n := Numeral.intNumeral_natCast n

theorem integer?_ofNat {n : Nat} (h : n < 2 ^ 63) : integer? (Numeral.ofNat n) = some (n : Int) := by
  have hlow : decide (-wordLimit ≤ (n : Int)) = true := by
    rw [decide_eq_true_eq]
    unfold wordLimit
    omega
  have hhigh : decide ((n : Int) < wordLimit) = true := by
    rw [decide_eq_true_eq]
    unfold wordLimit
    omega
  unfold integer?
  rw [Numeral.signedDigits?_ofNat, Option.filter_some, numeral_natCast, hlow, hhigh]
  simp

theorem clockAt_ofNat {T : Nat} (hT : T ≤ 10 ^ 14) : clockAt (ofNat T) = T := by
  have hreading : (ofNat T).Is T := is_ofNat (by omega)
  have hfloor : (ofNat T).floor.Is T := by
    refine Binary64.floor_is (by omega) (Int.le_of_eq hreading.2.symm) ?_ hreading.1
    rw [hreading.2, Int.add_mul, Int.one_mul]
    exact Int.lt_add_of_pos_right _ Binary64.unitsPerOne_cast_pos
  rw [clockAt, hfloor.toInt?]
  rfl

theorem find?_of_none {entries : Entries} (h : entries key = none) (clock : Int) :
    find? entries clock key = none := by
  rw [find?, h]
  rfl

theorem find?_of_lt {entries : Entries} (h : entries key = some ⟨text, some instant⟩)
    (hlt : clock < instant) : find? entries clock key = some ⟨text, some instant⟩ := by
  rw [find?, h]
  simp [Option.filter, Entry.isPresent, hlt]

-- ---------------------------------------------------------------------------
-- The store over a server
-- ---------------------------------------------------------------------------

section
variable {κ : Type} {client : Client κ} {entries : κ → Entries} {s : RedisStore.State κ}
  {now : Binary64}

theorem evaluates_send (h : Answers client entries)
    (hserve : serve now command (entries s.client) = (.ok value, held)) :
    ∃ s', Evaluates (RedisStore.send client now command) s value s' ∧
      s'.initialized = s.initialized ∧ entries s'.client = held := by
  have hreply := h.reply now command s.client
  have hafter := h.after now command s.client
  rw [hserve] at hreply hafter
  refine ⟨{ s with client := (client.send now command s.client).2 }, ⟨[], ?_⟩, rfl, hafter⟩
  show Outcome.mk (client.send now command s.client).1 _ _ = _
  rw [hreply]

theorem evaluates_call (h : Answers client entries) (operation : String)
    {command : Command} {made : Except Fault Command} (hmade : made = .ok command)
    (hserve : serve now command (entries s.client) = (.ok value, held)) :
    ∃ s', Evaluates (RedisStore.call client now operation made) s value s' ∧
      s'.initialized = s.initialized ∧ entries s'.client = held := by
  subst hmade
  obtain ⟨s', ⟨lines, hrun⟩, hafter⟩ := evaluates_send h hserve
  refine ⟨s', ⟨lines, ?_⟩, hafter⟩
  have hsend : ((do RedisStore.send client now (← Action.ofExcept (.ok command))) :
      StoreAction (RedisStore.State κ) Value) s = ⟨.ok value, s', lines⟩ := by
    rw [← hrun]
    exact congrFun (pure_bind command (RedisStore.send client now)) s
  unfold RedisStore.call Action.mapFault
  rw [hsend]
  rfl

theorem evaluates_require (hinit : s.initialized = true) : Evaluates RedisStore.require s () s := by
  refine ⟨[], ?_⟩
  unfold RedisStore.require
  rw [Action.run_bind_ok (Action.run_view RedisStore.State.initialized s), hinit]
  rfl

theorem fullKey_text (scope key : String) :
    (Settings.mk (.text scope)).fullKey (.text key) = .ok (scope ++ key) := by
  simp only [Settings.fullKey, Value.asText_text]
  rfl

theorem evaluates_isInitialized (client : Client κ) (settings : Settings) (now : Binary64)
    (hinit : s.initialized = true) :
    Evaluates (RedisStore.store client settings now .isInitialized) s (.bool true) s :=
  ⟨[], by rw [← hinit]; rfl⟩

theorem start_state (h : Answers client entries) (settings : Settings) (now : Binary64)
    (s : RedisStore.State κ) :
    (RedisStore.start client settings now s).state.initialized = true ∧
      entries (RedisStore.start client settings now s).state.client = entries s.client := by
  have hping (s : RedisStore.State κ) :
      serve now .ping (entries s.client) = (.ok (.text "PONG"), entries s.client) := rfl
  have hconnect : ∃ s', Evaluates (RedisStore.connect client now) s () s' ∧
      entries s'.client = entries s.client := by
    unfold RedisStore.connect
    by_cases hwait : client.status s.client = "wait"
    · have hserve : serve now .connect (entries s.client) = (.ok .undefined, entries s.client) := rfl
      obtain ⟨s', hrun, -, hheld⟩ := evaluates_send h hserve
      obtain ⟨s'', hrun', -, hheld'⟩ := evaluates_send h (hping s')
      refine ⟨s'', Evaluates.bind ⟨[], rfl⟩ ?_, hheld'.trans hheld⟩
      rw [if_pos hwait]
      exact hrun.bind (hrun'.bind (Evaluates.pure _ _))
    · obtain ⟨s', hrun, -, hheld⟩ := evaluates_send h (hping s)
      refine ⟨s', Evaluates.bind ⟨[], rfl⟩ ?_, hheld⟩
      rw [if_neg hwait]
      exact hrun.bind (Evaluates.pure _ _)
  obtain ⟨s', ⟨lines, hrun⟩, hheld⟩ := hconnect
  have hattempt : (Action.attempt (RedisStore.connect client now) :
      StoreAction (RedisStore.State κ) (Except Fault Unit)) s = ⟨.ok (.ok ()), s', lines⟩ := by
    rw [Action.run_attempt, hrun]
  unfold RedisStore.start
  rw [Action.run_bind_ok hattempt]
  cases settings.keyScope.asText with
  | ok scope => exact ⟨rfl, hheld⟩
  | error fault => exact ⟨rfl, hheld⟩

theorem evaluates_increment (h : Answers client entries) (scope : String)
    (hinit : s.initialized = true)
    (hserve : increment (entries s.client) (clockAt now) (scope ++ key) = (.ok value, held)) :
    ∃ s', Evaluates (RedisStore.store client ⟨.text scope⟩ now (.increment (.text key))) s value s' ∧
      s'.initialized = true ∧ entries s'.client = held := by
  have hmade : ((Settings.mk (.text scope)).fullKey (.text key)).map Command.incr =
      .ok (.incr (scope ++ key)) := by
    rw [fullKey_text]
    rfl
  obtain ⟨s', hrun, hinit', hheld⟩ := evaluates_call h "INCR" hmade hserve
  exact ⟨s', (evaluates_require hinit).bind hrun, hinit'.trans hinit, hheld⟩

theorem evaluates_touch (h : Answers client entries) (scope : String) {ttl : Binary64}
    (hinit : s.initialized = true)
    (hserve : pexpire (entries s.client) (clockAt now) (scope ++ key)
      (RedisStore.milliseconds ttl) = (.ok (.number 1), held)) :
    ∃ s', Evaluates (RedisStore.store client ⟨.text scope⟩ now (.touch (.text key) (.number ttl))) s
      TouchResult.touched.value s' ∧ s'.initialized = true ∧ entries s'.client = held := by
  have hmade : (do
      return Command.pexpire (← (Settings.mk (.text scope)).fullKey (.text key))
        (RedisStore.milliseconds (← (Value.number ttl).asNumber)) : Except Fault Command) =
      .ok (.pexpire (scope ++ key) (RedisStore.milliseconds ttl)) := by
    rw [fullKey_text]
    rfl
  obtain ⟨s', hrun, hinit', hheld⟩ := evaluates_call h "PEXPIRE" hmade hserve
  have hone : (Value.number 1).isNumber 1 = true := (isNumber_one (n := 1) (by decide)).mpr rfl
  refine ⟨s', (evaluates_require hinit).bind (hrun.bind ?_), hinit'.trans hinit, hheld⟩
  rw [if_pos hone]
  exact Evaluates.pure _ _

-- ---------------------------------------------------------------------------
-- Reading many keys
-- ---------------------------------------------------------------------------

def found (entries : Entries) (clock : Int) (scope : String) (keys : List String) :
    List (String × Value) :=
  foundBy (fun key => text? entries clock (scope ++ key)) keys

theorem filter_read (entries : Entries) (clock : Int) (scope : String) (keys : List String) :
    ((keys.map fun key => (key, read entries clock (scope ++ key))).filter fun entry =>
      !entry.2.isNull) = found entries clock scope keys := by
  refine filter_getD ?_ keys
  intro key value hvalue
  obtain ⟨entry, -, rfl⟩ := Option.map_eq_some_iff.mp hvalue
  rfl

theorem present_zip (entries : Entries) (clock : Int) (scope : String) {keys : List String}
    (hnodup : keys.Nodup) :
    RedisStore.present ((Key.ofEach (keys.map .text)).zip
      (keys.map fun key => read entries clock (scope ++ key))) =
      (found entries clock scope keys).map fun entry => (.text entry.1, entry.2) := by
  have hsame := sameEntry_zip (keys.map fun key => (key, read entries clock (scope ++ key)))
  simp only [List.map_map, Function.comp_def] at hsame
  rw [← filter_read]
  refine entriesOf_texts (List.rel_filter ?_ hsame) ?_
  · intro given entry hentry
    simp only [hentry.2]
  · rw [filter_read]
    exact (foundBy_sublist _ keys).nodup hnodup

theorem evaluates_readEach (h : Answers client entries) (scope : String) (keys : List String) :
    ∃ s', Evaluates (RedisStore.readEach client ⟨.text scope⟩ now (keys.map .text)) s
      (keys.map fun key => .ok (read (entries s.client) (clockAt now) (scope ++ key))) s' ∧
      s'.initialized = s.initialized ∧ entries s'.client = entries s.client := by
  induction keys generalizing s with
  | nil => exact ⟨s, Evaluates.pure _ _, rfl, rfl⟩
  | cons key rest ih =>
    have hget : serve now (.get (scope ++ key)) (entries s.client) =
        (.ok (read (entries s.client) (clockAt now) (scope ++ key)), entries s.client) := rfl
    obtain ⟨s', ⟨lines, hrun⟩, hinit, hheld⟩ := evaluates_send h hget
    obtain ⟨s'', hrest, hinit', hheld'⟩ := ih (s := s')
    rw [hheld] at hrest hheld'
    refine ⟨s'', ?_, hinit'.trans hinit, hheld'⟩
    rw [List.map_cons, List.map_cons]
    unfold RedisStore.readEach
    rw [fullKey_text]
    have hread : Evaluates (Action.attempt (RedisStore.send client now (.get (scope ++ key))) :
        StoreAction (RedisStore.State κ) (Except Fault Value)) s
        (.ok (read (entries s.client) (clockAt now) (scope ++ key))) s' :=
      ⟨lines, by rw [Action.run_attempt, hrun]⟩
    exact Evaluates.bind ⟨[], rfl⟩ (hread.bind (hrest.bind (Evaluates.pure _ _)))

theorem evaluates_gather (h : Answers client entries) (scope : String) {keys : List String}
    (hnodup : keys.Nodup) (hne : keys ≠ []) :
    ∃ s', Evaluates
      (RedisStore.getMultiCluster client ⟨.text scope⟩ now (.list (keys.map .text))) s
      (.table ((found (entries s.client) (clockAt now) scope keys).map fun entry =>
        (.text entry.1, entry.2))) s' ∧
      s'.initialized = s.initialized ∧ entries s'.client = entries s.client := by
  obtain ⟨s', hrun, hafter⟩ := evaluates_readEach h scope keys
  refine ⟨s', hrun.bind ?_, hafter⟩
  have hsettled : (keys.map fun key => (.ok (read (entries s.client) (clockAt now) (scope ++ key)) :
      Except Fault Value)).map RedisStore.settled =
        keys.map fun key => read (entries s.client) (clockAt now) (scope ++ key) := by
    rw [List.map_map]
    rfl
  have hnone : (keys.map fun key => (.ok (read (entries s.client) (clockAt now) (scope ++ key)) :
      Except Fault Value)).countP (fun reply => !reply.toBool) = 0 := by
    rw [List.countP_eq_zero]
    intro reply hmem
    obtain ⟨key, -, rfl⟩ := List.mem_map.mp hmem
    simp [Except.toBool]
  have hsome : ¬0 = (keys.map Value.text).length := by
    rw [List.length_map]
    exact fun heq => hne (List.length_eq_zero_iff.mp heq.symm)
  dsimp only
  rw [hnone, if_neg hsome, if_neg (Nat.lt_irrefl 0), hsettled, present_zip _ _ _ hnodup]
  exact Evaluates.pure _ _

theorem fullKeys_texts (scope : String) (keys : List String) :
    RedisStore.fullKeys ⟨.text scope⟩ (.list (keys.map .text)) =
      .ok (.list ((keys.map (scope ++ ·)).map .text)) := by
  have hkeys : (keys.map Value.text).mapM (Settings.mk (.text scope)).fullKey =
      .ok (keys.map (scope ++ ·)) := by
    rw [List.mapM_map]
    exact (congrArg keys.mapM (funext (fullKey_text scope))).trans List.mapM_pure
  simp only [RedisStore.fullKeys, hkeys]
  rfl

theorem readMany_texts (entries : Entries) (clock : Int) {keys : List String} (hne : keys ≠ []) :
    readMany entries clock (.list (keys.map .text)) = .ok (.list (keys.map (read entries clock))) := by
  have htexts : (keys.map Value.text).mapM Value.asText = .ok keys := by
    rw [List.mapM_map]
    refine (congrArg keys.mapM (funext Value.asText_text)).trans ?_
    exact List.mapM_pure.trans (congrArg Except.ok (List.map_id _))
  cases keys with
  | nil => exact absurd rfl hne
  | cons key rest =>
    unfold readMany
    rw [List.map_cons] at htexts ⊢
    simp only [htexts]
    rfl

theorem withKeys_map (keys : List String) (values : String → Value) :
    RedisStore.withKeys (Key.ofEach (keys.map .text)) (.list (keys.map values)) =
      .ok ((Key.ofEach (keys.map .text)).zip (keys.map values)) := by
  have hlength : (Key.ofEach (keys.map .text)).length = keys.length := by simp [Key.ofEach]
  simp [RedisStore.withKeys, RedisStore.withKeys.padded, hlength]

theorem evaluates_mget (h : Answers client entries) (scope : String) {keys : List String}
    (hnodup : keys.Nodup) (hne : keys ≠ []) :
    ∃ s', Evaluates
      (RedisStore.getMultiSingle client ⟨.text scope⟩ now (.list (keys.map .text))) s
      (.table ((found (entries s.client) (clockAt now) scope keys).map fun entry =>
        (.text entry.1, entry.2))) s' ∧
      s'.initialized = s.initialized ∧ entries s'.client = entries s.client := by
  have hmade : (RedisStore.fullKeys ⟨.text scope⟩ (.list (keys.map .text))).map Command.mget =
      .ok (.mget (.list ((keys.map (scope ++ ·)).map .text))) := by
    rw [fullKeys_texts]
    rfl
  have hserve : serve now (.mget (.list ((keys.map (scope ++ ·)).map .text))) (entries s.client) =
      (.ok (.list (keys.map fun key => read (entries s.client) (clockAt now) (scope ++ key))),
        entries s.client) := by
    show (readMany (entries s.client) (clockAt now) _, entries s.client) = _
    rw [readMany_texts _ _ (by simpa using hne), List.map_map]
    rfl
  obtain ⟨s', hrun, hafter⟩ := evaluates_call h "MGET" hmade hserve
  refine ⟨s', hrun.bind ?_, hafter⟩
  show Evaluates (Action.ofExcept (RedisStore.withKeys (Key.ofEach (keys.map .text)) _) >>= _) _ _ _
  rw [withKeys_map]
  refine Evaluates.bind (Evaluates.pure _ _) ?_
  rw [present_zip _ _ _ hnodup]
  exact Evaluates.pure _ _

/-- The two ways to read many keys, at once and one by one, come to the same. -/
theorem evaluates_getMulti (h : Answers client entries) (scope : String) (now : Binary64)
    {keys : List String} (hinit : s.initialized = true) (hnodup : keys.Nodup) :
    ∃ s', Evaluates
      (RedisStore.store client ⟨.text scope⟩ now (.getMulti (.list (keys.map .text)))) s
      (.table ((found (entries s.client) (clockAt now) scope keys).map fun entry =>
        (.text entry.1, entry.2))) s' ∧
      s'.initialized = true ∧ entries s'.client = entries s.client := by
  cases keys with
  | nil =>
    refine ⟨s, (evaluates_require hinit).bind (Evaluates.bind (Evaluates.pure _ _) ?_), hinit, rfl⟩
    rw [List.map_nil, isNumber_length, List.isEmpty_nil, if_pos rfl]
    exact Evaluates.pure _ _
  | cons key rest =>
    have hlength : ¬(Value.number (ofNat ((key :: rest).map Value.text).length)).isNumber .zero =
        true := by
      rw [isNumber_length]
      exact Bool.false_ne_true
    cases hcluster : client.isCluster with
    | true =>
      obtain ⟨s', hrun, hinit', hheld⟩ := evaluates_gather h scope hnodup (List.cons_ne_nil key rest)
      refine ⟨s', (evaluates_require hinit).bind (Evaluates.bind (Evaluates.pure _ _) ?_),
        hinit'.trans hinit, hheld⟩
      rw [if_neg hlength, if_pos hcluster]
      exact hrun
    | false =>
      obtain ⟨s', hrun, hinit', hheld⟩ := evaluates_mget h scope hnodup (List.cons_ne_nil key rest)
      refine ⟨s', (evaluates_require hinit).bind (Evaluates.bind (Evaluates.pure _ _) ?_),
        hinit'.trans hinit, hheld⟩
      rw [if_neg hlength, if_neg (by simp [hcluster])]
      exact hrun

end

end SlidingTally.RedisServer
