import SlidingTally.Proofs.Config.Boot
import SlidingTally.Proofs.Config.ServerLists

/-!
# The nodes of a Redis store

The servers of a configuration are looked at three times: the validation asks whether any of them is
well formed, the selection reads their addresses, and the plan chooses the kind of client by how many
there are and falls back to the local server if there is none. All three go by the same entries, so
that a validated configuration reaches the nodes it names and no others. Main statement:
`Config.targets_of_validate`.
-/

namespace SlidingTally

open ServerList (Malformed HostPort Denotes Reads)

-- ---------------------------------------------------------------------------
-- Well-formed entries
-- ---------------------------------------------------------------------------

namespace ServerList

variable {entry : String} {entries : List String} {address : ServerAddress}

theorem address?_eq_none_iff : address? entry = none ↔ Malformed entry := by
  refine ⟨fun h => malformed_iff.mpr fun address hhost => ?_, Malformed.address?⟩
  rw [address?_eq_some_iff.mpr hhost] at h
  cases h

instance (entry : String) : Decidable (Malformed entry) :=
  decidable_of_iff (address? entry = none) address?_eq_none_iff

theorem addresses_parse (entries : List String) :
    (parse entries).1 = entries.filterMap address? := by
  induction entries with
  | nil => rfl
  | cons entry rest ih =>
    cases hfound : address? entry with
    | some address => rw [parse_cons_some hfound, List.filterMap_cons_some hfound, ih]
    | none => rw [parse_cons_none hfound, List.filterMap_cons_none hfound, ih]

theorem length_addresses (entries : List String) :
    (parse entries).1.length = entries.countP (¬Malformed ·) := by
  rw [addresses_parse, List.length_filterMap_eq_countP]
  refine List.countP_congr fun entry _ => ?_
  rw [decide_eq_true_iff, ← address?_eq_none_iff, Option.isSome_iff_ne_none]

theorem addresses_eq_nil_iff : (parse entries).1 = [] ↔ ∀ entry ∈ entries, Malformed entry := by
  simp only [addresses_parse, List.filterMap_eq_nil_iff, address?_eq_none_iff]

theorem mem_addresses_iff :
    address ∈ (parse entries).1 ↔ ∃ entry ∈ entries, HostPort Denotes entry address := by
  simp only [addresses_parse, List.mem_filterMap, address?_eq_some_iff]

end ServerList

-- ---------------------------------------------------------------------------
-- Plans
-- ---------------------------------------------------------------------------

namespace RedisStore.Plan

variable {plan : Plan} {entries : List String}

theorem mode_eq_cluster_iff : plan.mode = .cluster ↔ 1 < plan.addresses.length := by
  simp [mode]

theorem mode_eq_single_iff : plan.mode = .single ↔ plan.addresses.length ≤ 1 := by
  simp [mode]

theorem nodes_of_ne_nil (h : plan.addresses ≠ []) : plan.nodes = plan.addresses := by
  unfold nodes
  split
  · exact absurd ‹_› h
  · rfl

/-- The plan reaches the nodes that the well-formed entries name, in their order, with the kind of
client that their number asks for. The local server is among them only if an entry names it. -/
structure Targets (plan : Plan) (entries : List String) : Prop where
  nodes : plan.nodes = (ServerList.parse entries).1
  named : Reads (HostPort Denotes) entries plan.nodes (ServerList.parse entries).2
  single : plan.mode = .single ↔ entries.countP (¬Malformed ·) = 1
  cluster : plan.mode = .cluster ↔ 2 ≤ entries.countP (¬Malformed ·)
  localServer : localServer ∈ plan.nodes → ∃ entry ∈ entries, HostPort Denotes entry localServer

theorem targets_of_addresses (h : plan.addresses = (ServerList.parse entries).1)
    (hsome : plan.addresses ≠ []) : plan.Targets entries := by
  have hnodes : plan.nodes = (ServerList.parse entries).1 := (nodes_of_ne_nil hsome).trans h
  have hcount : plan.addresses.length = entries.countP (¬Malformed ·) := by
    rw [h, ServerList.length_addresses]
  have hpos := List.length_pos_iff.mpr hsome
  refine ⟨hnodes, ?_, ?_, ?_, fun hmem => ?_⟩
  · rw [hnodes]
    exact ServerList.reads_parse fun _ _ _ => ServerList.address?_eq_some_iff.symm
  · rw [mode_eq_single_iff, hcount]
    omega
  · rw [mode_eq_cluster_iff, hcount]
    rfl
  · rw [hnodes] at hmem
    exact ServerList.mem_addresses_iff.mp hmem

end RedisStore.Plan

-- ---------------------------------------------------------------------------
-- Configurations
-- ---------------------------------------------------------------------------

namespace Config

variable {σ : Type} {s : σ} {config : Config} {requireMongoUri : Bool} {entries : List String}

theorem storeKind?_of_name (kind : StoreKind) (h : config.store = .text kind.name) :
    config.storeKind? = some kind := by
  rw [storeKind?, h, StoreKind.ofValue?_name]

theorem parse_serverEntries (h : config.servers = .list (entries.map .text)) :
    ServerList.parseValue config.serverEntries s =
      ⟨.ok (ServerList.parse entries).1, s, (ServerList.parse entries).2⟩ := by
  rw [serverEntries, h]
  exact ServerList.parseEntries_texts entries s

theorem plan_of_select (hkind : config.storeKind? = some .redis)
    (hservers : config.servers = .list (entries.map .text))
    (hselect : (config.select s).reply = .ok selection) :
    ∃ plan, selection = .redis plan ∧ plan.addresses = (ServerList.parse entries).1 := by
  unfold select at hselect
  rw [hkind] at hselect
  obtain ⟨addresses, haddresses, hrest⟩ := Action.reply_bind_ok.mp hselect
  rw [parse_serverEntries hservers] at haddresses hrest
  cases haddresses
  obtain ⟨options, -, hplan⟩ := Action.reply_bind_ok.mp hrest
  cases hplan
  exact ⟨_, rfl, rfl⟩

theorem refused_of_malformed (hstore : config.store = .text "redis")
    (hservers : config.servers = .list (entries.map .text))
    (h : ∀ entry ∈ entries, Malformed entry) :
    (config.validate requireMongoUri s).reply = .error Refusal.noServer.fault := by
  have hkind := storeKind?_of_name .redis hstore
  have hread : ServerList.parseValue config.serverEntries s =
      ⟨.ok [], s, (ServerList.parse entries).2⟩ := by
    rw [parse_serverEntries hservers, ServerList.addresses_eq_nil_iff.mpr h]
  have htruthy : config.store.truthy = true := by
    rw [hstore]
    rfl
  unfold validate
  rw [htruthy, if_pos hkind]
  simp [refuse, Action.run_bind, hread]

/-- A validated Redis configuration reaches the nodes that its servers name, and only those: it gets
a plan, unless its store options are null, and any plan that it gets targets them. If all its entries
are malformed, then it is refused for that. -/
theorem targets_of_validate (hstore : config.store = .text "redis")
    (hservers : config.servers = .list (entries.map .text)) :
    ((config.validate requireMongoUri s).reply = .ok () →
      (config.storeOptions ≠ .null → ∃ plan, (config.select s).reply = .ok (.redis plan)) ∧
      ∀ selection, (config.select s).reply = .ok selection →
        ∃ plan, selection = .redis plan ∧ plan.Targets entries) ∧
    ((∀ entry ∈ entries, Malformed entry) →
      (config.validate requireMongoUri s).reply = .error Refusal.noServer.fault) := by
  refine ⟨fun hvalid => ?_, refused_of_malformed hstore hservers⟩
  have hkind := storeKind?_of_name .redis hstore
  have haccepted := validate_ok_iff.mp hvalid
  constructor
  · intro hoptions
    obtain ⟨selection, hselect, -⟩ := select_of_accepted haccepted hoptions hkind
    obtain ⟨plan, rfl, -⟩ := plan_of_select hkind hservers hselect
    exact ⟨plan, hselect⟩
  · intro selection hselect
    obtain ⟨plan, rfl, haddresses⟩ := plan_of_select hkind hservers hselect
    obtain ⟨addresses, hread, hsome⟩ := haccepted.servers hkind
    rw [parse_serverEntries hservers] at hread
    cases hread
    refine ⟨plan, rfl, RedisStore.Plan.targets_of_addresses haddresses ?_⟩
    rw [haddresses]
    exact List.isEmpty_eq_false_iff.mp hsome

/-- One of two entries has a port out of range; the other one makes a single node. -/
theorem targets_of_validate_single :
    let config : Config :=
      { store := .text "redis", servers := .list [.text "cache:70000", .text " cache:6380 "] }
    (config.validate true ()).reply = .ok () ∧
      ∃ plan, (config.select ()).reply = .ok (.redis plan) ∧
        plan.Targets ["cache:70000", " cache:6380 "] ∧ plan.mode = .single ∧
        plan.nodes = [⟨"cache", 6380⟩] := by
  intro config
  have hservers : config.servers = .list (["cache:70000", " cache:6380 "].map .text) := rfl
  have hvalid : (config.validate true ()).reply = .ok () := by
    refine validate_ok_iff.mpr ⟨rfl, fun _ => ⟨[⟨"cache", 6380⟩], ?_, rfl⟩, ?_, ?_, rfl, ?_⟩
    · rw [parse_serverEntries hservers]
      exact congrArg Except.ok (by decide +kernel)
    · exact fun _ hmongo => absurd hmongo (by decide)
    · exact fun hcustom => absurd hcustom (by decide)
    · exact fun hexposed => absurd hexposed (by decide)
  have htargets := (targets_of_validate rfl hservers).1 hvalid
  obtain ⟨plan, hselect⟩ := htargets.1 nofun
  obtain ⟨_, heq, hplan⟩ := htargets.2 _ hselect
  cases heq
  refine ⟨hvalid, plan, hselect, hplan, hplan.single.mpr (by decide +kernel), ?_⟩
  rw [hplan.nodes]
  decide +kernel

end Config

end SlidingTally
