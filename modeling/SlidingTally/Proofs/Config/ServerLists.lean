import SlidingTally.Proofs.Number.Spelling
import SlidingTally.ServerList

/-!
# Which server entries are kept

An entry is kept if it is a host, a colon and a port, where the port counts by the number that its
text denotes. Digits denote their value; `LoosePort` lists the other ports that denote one, so that
the entries that are kept are those with a port in digits exactly as long as there is no loose one.
Each other entry is reported by an error that names it. A list that was written of addresses, with
blanks, empty entries and malformed ones in between, is read back as these addresses. Main statements:
`reads_digits_iff` and `parse_split_written`.
-/

namespace SlidingTally

namespace ServerAddress

/-- An address that can be written into a list of servers. -/
structure Proper (address : ServerAddress) : Prop where
  host_ne : address.host ≠ ""
  no_colon : ':' ∉ address.host.toList
  no_comma : ',' ∉ address.host.toList
  no_blank : ∀ c ∈ address.host.toList, Text.isBlank c = false
  port_pos : 0 < address.port
  port_le : address.port ≤ 65535

section
variable {address : ServerAddress} {cs : List Char}

theorem toList_text (address : ServerAddress) : address.text.toList =
    address.host.toList ++ ':' :: Nat.toDigits 10 address.port := by
  have hport : (toString address.port).toList = Nat.toDigits 10 address.port := String.toList_ofList
  rw [ServerAddress.text, String.toList_append, String.toList_append, hport, List.append_assoc]
  rfl

theorem Proper.mem_text (h : address.Proper) (hmem : c ∈ address.text.toList) :
    c ≠ ',' ∧ Text.isBlank c = false := by
  rw [toList_text, List.mem_append, List.mem_cons] at hmem
  rcases hmem with hmem | rfl | hmem
  · exact ⟨fun heq => h.no_comma (heq ▸ hmem), h.no_blank c hmem⟩
  · exact ⟨by decide, by decide⟩
  · have hdigit := Numeral.isDigit_of_mem hmem
    refine ⟨?_, Text.not_isBlank_of_isDigit hdigit⟩
    rintro rfl
    cases hdigit

theorem Proper.not_blank (h : address.Proper)
    (hpadded : Text.Padded address.text.toList cs) : ¬Text.Blank cs := by
  intro hblank
  have htrim := hpadded.trim_eq fun c hmem => (h.mem_text hmem).2
  rw [hblank.trim, toList_text] at htrim
  exact List.append_ne_nil_of_right_ne_nil _ (List.cons_ne_nil _ _) htrim.symm

end

end ServerAddress

namespace ServerList

open Numeral (AllDigits denoted SpelledIn LooselyWhole)

-- ---------------------------------------------------------------------------
-- Spellings
-- ---------------------------------------------------------------------------

/-- The number that the whole text of a port reads as. Any numeral will do, with a sign, a base, a
point, an exponent or blanks around it: `0x50` and `8e1` denote 80, and `80a` denotes nothing. -/
def Denotes (port : List Char) (n : Nat) : Prop := (Numeral.read (String.ofList port)).Is n

def DigitPort (port : List Char) (n : Nat) : Prop := AllDigits port ∧ denoted port = n

/-- The ports that denote a number without being digits only: an integer with a sign or with blanks
around it, digits of another base, and a decimal with a point or an exponent. -/
inductive LoosePort (port : List Char) (n : Nat) : Prop
  | padded (h : SpelledIn (String.ofList port) n) (hdigits : ¬AllDigits port)
  | other (h : LooselyWhole (Text.trim port)) (hn : Denotes port n)

/-- Trimmed, an entry is a host that is not empty, a colon and a port from 1 to 65535, which is
written in one of the ways of `Port`. -/
def HostPort (Port : List Char → Nat → Prop) (entry : String) (address : ServerAddress) : Prop :=
  ∃ host port, Text.trim entry.toList = host ++ ':' :: port ∧ host ≠ [] ∧ ':' ∉ host ∧ ':' ∉ port ∧
    Port port address.port ∧ 0 < address.port ∧ address.port ≤ 65535 ∧
    address.host = String.ofList host

/-- The line is the error that names the entry as one that is no address. -/
structure Reports (line : LogLine) (entry : String) : Prop where
  level : line.level = .error
  component : line.component = .serverList
  text : line.text = "Invalid server " ++ entry ++ " in counter store server list"

/-- What is made of a list if the entries that are spelled right are kept, each as its address, and
each other one is reported once. -/
inductive Reads (Spelled : String → ServerAddress → Prop) :
    List String → List ServerAddress → List LogLine → Prop where
  | nil : Reads Spelled [] [] []
  | kept (h : Spelled entry address) (hrest : Reads Spelled entries addresses lines) :
      Reads Spelled (entry :: entries) (address :: addresses) lines
  | leftOut (h : ∀ address, ¬Spelled entry address) (hline : Reports line entry)
      (hrest : Reads Spelled entries addresses lines) :
      Reads Spelled (entry :: entries) addresses (line :: lines)

section
variable {entry : String} {entries : List String} {address : ServerAddress}
  {addresses : List ServerAddress} {lines : List LogLine} {host port : List Char} {n : Nat}

theorem reports_complaint (entry : String) : Reports (complaint entry) entry := ⟨rfl, rfl, rfl⟩

-- ---------------------------------------------------------------------------
-- Ports
-- ---------------------------------------------------------------------------

theorem DigitPort.not_loosePort {m : Nat} (h : DigitPort port n) : ¬LoosePort port m := by
  intro hloose
  cases hloose with
  | padded _ hdigits => exact hdigits h.1
  | other hloose =>
    have hspelled := Numeral.spelledIn_iff.mp h.1.spelledIn
    rw [String.toList_ofList, hloose.unwritten] at hspelled
    cases hspelled

theorem denotes_iff (hn : n < 2 ^ 53) : Denotes port n ↔ DigitPort port n ∨ LoosePort port n := by
  constructor
  · intro h
    cases hwritten : Numeral.signedDigits? (Text.trim port) with
    | none =>
      refine .inr (.other (Numeral.looselyWhole_iff.mpr ⟨hwritten, ?_⟩) h)
      have hinteger := h.isInteger
      rwa [Numeral.read, String.toList_ofList] at hinteger
    | some k =>
      -- Below 2^53 the number that is read is the one that is spelled.
      rw [← String.toList_ofList (l := port), ← Numeral.spelledIn_iff] at hwritten
      obtain rfl := Numeral.eq_of_is hwritten h hn
      by_cases hdigits : AllDigits port
      · have hvalue := Numeral.spelledIn_unique hdigits.spelledIn hwritten
        exact .inl ⟨hdigits, Int.ofNat_inj.mp hvalue⟩
      · exact .inr (.padded hwritten hdigits)
  · rintro (⟨hdigits, rfl⟩ | hloose)
    · exact Numeral.read_is hdigits.spelledIn hn
    · cases hloose with
      | padded h => exact Numeral.read_is h hn
      | other _ h => exact h

theorem port?_eq_some_iff : port? port = some n ↔ Denotes port n ∧ 0 < n ∧ n ≤ 65535 := by
  unfold port?
  constructor
  · intro h
    split at h
    · rename_i k hk
      obtain ⟨l, hl⟩ := Binary64.exists_is (Option.isSome_of_eq_some hk)
      obtain rfl := Option.some.inj (hl.toInt?.symm.trans hk)
      split at h
      · cases h
        refine ⟨?_, by omega, by omega⟩
        rwa [Denotes, Int.toNat_of_nonneg (by omega)]
      · cases h
    · cases h
  · rintro ⟨h, hpos, hle⟩
    rw [h.toInt?]
    show (if _ then some (n : Int).toNat else none) = some n
    rw [if_pos (by omega), Int.toNat_natCast]

-- ---------------------------------------------------------------------------
-- Entries
-- ---------------------------------------------------------------------------

theorem fields_eq_pair_iff {cs : List Char} : Text.fields ':' cs = [host, port] ↔
    cs = host ++ ':' :: port ∧ ':' ∉ host ∧ ':' ∉ port := by
  rw [Text.fields_eq_iff]
  simp [List.intercalate, and_comm]

theorem address?_eq_some_iff : address? entry = some address ↔ HostPort Denotes entry address := by
  constructor
  · intro h
    unfold address? at h
    split at h
    · rename_i host port hfields
      obtain ⟨htrim, hhost, hport⟩ := fields_eq_pair_iff.mp hfields
      split at h
      · cases h
      · rename_i hne
        obtain ⟨n, hn, rfl⟩ := Option.map_eq_some_iff.mp h
        obtain ⟨hdenotes, hpos, hle⟩ := port?_eq_some_iff.mp hn
        exact ⟨host, port, htrim, hne, hhost, hport, hdenotes, hpos, hle, rfl⟩
    · cases h
  · rintro ⟨host, port, htrim, hne, hhost, hport, hdenotes, hpos, hle, hname⟩
    have hn := port?_eq_some_iff.mpr ⟨hdenotes, hpos, hle⟩
    unfold address?
    rw [fields_eq_pair_iff.mpr ⟨htrim, hhost, hport⟩]
    simp only [if_neg hne, hn, Option.map_some, ← hname]

section
variable {Port Port' : List Char → Nat → Prop}

theorem HostPort.imp (h : HostPort Port entry address)
    (himp : ∀ port n, n ≤ 65535 → Port port n → Port' port n) : HostPort Port' entry address := by
  obtain ⟨host, port, htrim, hne, hhost, hport, hn, hpos, hle, hname⟩ := h
  exact ⟨host, port, htrim, hne, hhost, hport, himp port _ hle hn, hpos, hle, hname⟩

theorem HostPort.or_cases (h : HostPort (fun port n => Port port n ∨ Port' port n) entry address) :
    HostPort Port entry address ∨ HostPort Port' entry address := by
  obtain ⟨host, port, htrim, hne, hhost, hport, hn | hn, hrest⟩ := h
  · exact .inl ⟨host, port, htrim, hne, hhost, hport, hn, hrest⟩
  · exact .inr ⟨host, port, htrim, hne, hhost, hport, hn, hrest⟩

theorem HostPort.pair_unique {address' : ServerAddress}
    (h : HostPort Port entry address) (h' : HostPort Port' entry address') :
    address.host = address'.host ∧ ∃ port, Port port address.port ∧ Port' port address'.port := by
  obtain ⟨host, port, htrim, -, hhost, hport, hn, -, -, hname⟩ := h
  obtain ⟨host', port', htrim', -, hhost', hport', hn', -, -, hname'⟩ := h'
  have hfields := fields_eq_pair_iff.mpr ⟨htrim, hhost, hport⟩
  have hfields' := fields_eq_pair_iff.mpr ⟨htrim', hhost', hport'⟩
  rw [hfields] at hfields'
  cases hfields'
  exact ⟨hname.trans hname'.symm, port, hn, hn'⟩

end

theorem hostPort_or_iff : HostPort (fun port n => DigitPort port n ∨ LoosePort port n) entry address ↔
    address? entry = some address := by
  rw [address?_eq_some_iff]
  constructor
  · exact fun h => h.imp fun _ _ hle => (denotes_iff (by omega)).mpr
  · exact fun h => h.imp fun _ _ hle => (denotes_iff (by omega)).mp

theorem address?_of_digits (h : HostPort DigitPort entry address) : address? entry = some address :=
  hostPort_or_iff.mp (h.imp fun _ _ _ => .inl)

theorem address?_of_loose (h : HostPort LoosePort entry address) : address? entry = some address :=
  hostPort_or_iff.mp (h.imp fun _ _ _ => .inr)

theorem HostPort.not_loose {address' : ServerAddress} (h : HostPort DigitPort entry address) :
    ¬HostPort LoosePort entry address' := by
  intro hloose
  obtain ⟨-, port, hdigits, hother⟩ := h.pair_unique hloose
  exact hdigits.not_loosePort hother

-- ---------------------------------------------------------------------------
-- Lists
-- ---------------------------------------------------------------------------

theorem parse_cons_some (h : address? entry = some address) (entries : List String) :
    parse (entry :: entries) = (address :: (parse entries).1, (parse entries).2) := by
  rw [parse, h]

theorem parse_cons_none (h : address? entry = none) (entries : List String) :
    parse (entry :: entries) = ((parse entries).1, complaint entry :: (parse entries).2) := by
  rw [parse, h]

section
variable {Spelled : String → ServerAddress → Prop}

theorem reads_parse (h : ∀ entry ∈ entries, ∀ address,
    Spelled entry address ↔ address? entry = some address) :
    Reads Spelled entries (parse entries).1 (parse entries).2 := by
  induction entries with
  | nil => exact .nil
  | cons entry rest ih =>
    obtain ⟨hentry, hrest⟩ := List.forall_mem_cons.mp h
    cases hfound : address? entry with
    | some address =>
      rw [parse_cons_some hfound]
      exact .kept ((hentry address).mpr hfound) (ih hrest)
    | none =>
      rw [parse_cons_none hfound]
      refine .leftOut (fun address hspelled => ?_) (reports_complaint entry) (ih hrest)
      rw [(hentry address).mp hspelled] at hfound
      cases hfound

theorem reads_cons_iff : Reads Spelled (entry :: entries) addresses lines ↔
    (∃ address rest, Spelled entry address ∧ addresses = address :: rest ∧
      Reads Spelled entries rest lines) ∨
    (∃ line rest, (∀ address, ¬Spelled entry address) ∧ Reports line entry ∧ lines = line :: rest ∧
      Reads Spelled entries addresses rest) := by
  constructor
  · intro h
    cases h with
    | kept h hrest => exact .inl ⟨_, _, h, rfl, hrest⟩
    | leftOut h hline hrest => exact .inr ⟨_, _, h, hline, rfl, hrest⟩
  · rintro (⟨_, _, h, rfl, hrest⟩ | ⟨_, _, h, hline, rfl, hrest⟩)
    · exact .kept h hrest
    · exact .leftOut h hline hrest

theorem Reads.length_le (h : Reads Spelled entries addresses lines)
    (hspelled : ∀ entry address, Spelled entry address → address? entry = some address) :
    addresses.length ≤ (parse entries).1.length := by
  induction h with
  | nil => exact Nat.le_refl _
  | kept h _ ih =>
    rw [parse_cons_some (hspelled _ _ h)]
    exact Nat.succ_le_succ ih
  | @leftOut entry _ _ _ _ _ _ _ ih =>
    cases hfound : address? entry with
    | some address =>
      rw [parse_cons_some hfound]
      exact Nat.le_succ_of_le ih
    | none => rwa [parse_cons_none hfound]

end

/-- If only ports in digits are kept, then no entry has a loose one: it would stay out of the
addresses, which are then too few. -/
theorem not_loose_of_reads (h : Reads (HostPort DigitPort) entries (parse entries).1 (parse entries).2) :
    ∀ entry ∈ entries, ¬∃ address, HostPort LoosePort entry address := by
  induction entries with
  | nil => exact nofun
  | cons entry rest ih =>
    rw [List.forall_mem_cons]
    cases hfound : address? entry with
    | some address =>
      rw [parse_cons_some hfound, reads_cons_iff] at h
      rcases h with ⟨_, _, hdigits, heq, hrest⟩ | ⟨_, _, -, -, -, hrest⟩
      · obtain ⟨-, rfl⟩ := List.cons_eq_cons.mp heq
        exact ⟨fun ⟨_, hloose⟩ => hdigits.not_loose hloose, ih hrest⟩
      · -- The rest would have to make up for the address of this entry.
        have hle := hrest.length_le fun _ _ => address?_of_digits
        exact absurd hle (Nat.not_succ_le_self _)
    | none =>
      rw [parse_cons_none hfound, reads_cons_iff] at h
      rcases h with ⟨_, _, hdigits, -, -⟩ | ⟨_, _, -, -, heq, hrest⟩
      · rw [address?_of_digits hdigits] at hfound
        cases hfound
      · obtain ⟨-, rfl⟩ := List.cons_eq_cons.mp heq
        refine ⟨fun ⟨_, hloose⟩ => ?_, ih hrest⟩
        rw [address?_of_loose hloose] at hfound
        cases hfound

/-- Of every list the entries are kept whose port is written in digits or loosely, and each other one
is logged once. So what is kept are the entries with a port in digits, with its value, exactly if no
entry has a loose port. -/
theorem reads_digits_iff (entries : List String) :
    Reads (HostPort fun port n => DigitPort port n ∨ LoosePort port n) entries
        (parse entries).1 (parse entries).2 ∧
      (Reads (HostPort DigitPort) entries (parse entries).1 (parse entries).2 ↔
        ∀ entry ∈ entries, ¬∃ address, HostPort LoosePort entry address) := by
  refine ⟨reads_parse fun _ _ _ => hostPort_or_iff, not_loose_of_reads, fun h => ?_⟩
  refine reads_parse fun entry hmem address => ⟨address?_of_digits, fun hfound => ?_⟩
  exact (hostPort_or_iff.mpr hfound).or_cases.resolve_right fun hloose => h entry hmem ⟨address, hloose⟩

theorem not_reads_hexadecimal :
    parse ["a:0x50"] = ([⟨"a", 80⟩], []) ∧
      ¬Reads (HostPort DigitPort) ["a:0x50"] (parse ["a:0x50"]).1 (parse ["a:0x50"]).2 := by
  have hparse : parse ["a:0x50"] = ([⟨"a", 80⟩], []) := by decide +kernel
  have hhex : LooselyWhole (Text.trim "0x50".toList) :=
    Numeral.looselyWhole_iff.mpr (by decide +kernel)
  have hdenotes : Denotes "0x50".toList 80 := (port?_eq_some_iff.mp (by decide +kernel)).1
  have hloose : HostPort LoosePort "a:0x50" ⟨"a", 80⟩ :=
    ⟨"a".toList, "0x50".toList, by decide, by decide, by decide, by decide, .other hhex hdenotes,
      by decide, by decide, rfl⟩
  exact ⟨hparse, fun h => not_loose_of_reads h _ (List.mem_singleton.mpr rfl) ⟨_, hloose⟩⟩

end

-- ---------------------------------------------------------------------------
-- Written lists
-- ---------------------------------------------------------------------------

/-- Trimmed, an entry has not two parts, or no host, or a port that denotes no number from 1 to
65535, whatever numeral it is written as: `host:0` and `host:http` are malformed, `host:0x50` is not. -/
inductive Malformed (entry : String) : Prop
  | parts (h : (Text.trim entry.toList).count ':' ≠ 1)
  | host (h : Text.trim entry.toList = ':' :: port)
  | port (h : Text.trim entry.toList = host ++ ':' :: port)
      (hport : ∀ n, 0 < n → n ≤ 65535 → ¬Denotes port n)

/-- Entries that were written of addresses, with blanks around each and with blank and malformed
entries in between. The malformed ones are listed without the blanks around them. -/
inductive Written : List String → List ServerAddress → List String → Prop where
  | nil : Written [] [] []
  | address (h : address.Proper) (hpadded : Text.Padded address.text.toList entry.toList)
      (hrest : Written entries addresses malformed) :
      Written (entry :: entries) (address :: addresses) malformed
  | blank (h : Text.Blank entry.toList) (hrest : Written entries addresses malformed) :
      Written (entry :: entries) addresses malformed
  | malformed (h : Malformed entry) (hcomma : ',' ∉ entry.toList) (hblank : ¬Text.Blank entry.toList)
      (hrest : Written entries addresses malformed) :
      Written (entry :: entries) addresses (String.ofList (Text.trim entry.toList) :: malformed)

section
variable {entry : String} {entries : List String} {address : ServerAddress}
  {addresses : List ServerAddress} {malformed : List String} {host port : List Char}

theorem count_colon (hhost : ':' ∉ host) (hport : ':' ∉ port) : (host ++ ':' :: port).count ':' = 1 := by
  rw [List.count_append, List.count_cons_self, List.count_eq_zero.mpr hhost,
    List.count_eq_zero.mpr hport]

theorem not_mem_of_count_colon (h : (host ++ ':' :: port).count ':' = 1) : ':' ∉ host ∧ ':' ∉ port := by
  rw [List.count_append, List.count_cons_self] at h
  exact ⟨List.count_eq_zero.mp (by omega), List.count_eq_zero.mp (by omega)⟩

theorem malformed_iff : Malformed entry ↔ ∀ address, ¬HostPort Denotes entry address := by
  constructor
  · rintro h address ⟨host, port, htrim, hne, hhost, hport, hn, hpos, hle, -⟩
    have hcount := count_colon hhost hport
    cases h with
    | parts h =>
      rw [htrim] at h
      exact h hcount
    | host h =>
      rw [htrim] at h
      obtain ⟨c, rest, rfl⟩ := List.exists_cons_of_ne_nil hne
      obtain ⟨rfl, -⟩ := List.cons_eq_cons.mp h
      exact hhost List.mem_cons_self
    | port h hdenotes =>
      have hfields := fields_eq_pair_iff.mpr ⟨htrim, hhost, hport⟩
      rw [← htrim, h] at hcount
      rw [fields_eq_pair_iff.mpr ⟨h, not_mem_of_count_colon hcount⟩] at hfields
      cases hfields
      exact hdenotes _ hpos hle hn
  · intro h
    by_contra hwell
    have hcount : (Text.trim entry.toList).count ':' = 1 := by
      by_contra hcount
      exact hwell (.parts hcount)
    have hmem : ':' ∈ Text.trim entry.toList := List.count_pos_iff.mp (hcount ▸ Nat.one_pos)
    obtain ⟨host, port, htrim⟩ := List.append_of_mem hmem
    rw [htrim] at hcount
    obtain ⟨hhost, hport⟩ := not_mem_of_count_colon hcount
    refine hwell (.port htrim fun n hpos hle hn => ?_)
    refine h ⟨String.ofList host, n⟩ ⟨host, port, htrim, ?_, hhost, hport, hn, hpos, hle, rfl⟩
    rintro rfl
    exact hwell (.host htrim)

theorem Malformed.address? (h : Malformed entry) : address? entry = none :=
  Option.eq_none_iff_forall_ne_some.mpr fun address hfound =>
    malformed_iff.mp h address (address?_eq_some_iff.mp hfound)

theorem address?_trimmed (entry : String) :
    address? (String.ofList (Text.trim entry.toList)) = address? entry := by
  have htrim : Text.trim (Text.trim entry.toList) = Text.trim entry.toList :=
    (Text.padded_trim entry.toList).trim.symm
  unfold address?
  rw [String.toList_ofList, htrim]

theorem address?_of_proper (h : address.Proper) (hpadded : Text.Padded address.text.toList entry.toList) :
    address? entry = some address := by
  have htrim : Text.trim entry.toList = _ := hpadded.trim_eq fun c hmem => (h.mem_text hmem).2
  rw [address.toList_text] at htrim
  have hdigits := Numeral.allDigits_toDigits address.port
  refine address?_of_digits ⟨_, _, htrim, ?_, h.no_colon, ?_,
    ⟨hdigits, Numeral.denoted_toDigits _⟩, h.port_pos, h.port_le, String.ofList_toList.symm⟩
  · exact fun hnil => h.host_ne (String.toList_eq_nil_iff.mp hnil)
  · exact fun hmem => absurd (hdigits.2 _ hmem) (by decide)

-- ---------------------------------------------------------------------------
-- Splitting at the commas
-- ---------------------------------------------------------------------------

def trimmed (entries : List String) : List String :=
  ((entries.map fun entry => Text.trim entry.toList).filter (· ≠ [])).map String.ofList

theorem trimmed_cons_of_blank (h : Text.Blank entry.toList) (entries : List String) :
    trimmed (entry :: entries) = trimmed entries := by
  simp [trimmed, h.trim]

theorem trimmed_cons (h : ¬Text.Blank entry.toList) (entries : List String) :
    trimmed (entry :: entries) = String.ofList (Text.trim entry.toList) :: trimmed entries := by
  rw [Text.blank_iff] at h
  simp [trimmed, h]

theorem splitValue_intercalate (h : ∀ entry ∈ entries, ',' ∉ entry.toList) :
    splitValue (.text (",".intercalate entries)) = .ok (trimmed entries) := by
  have hsplit : split (",".intercalate entries) = trimmed entries := by
    cases entries with
    | nil => rfl
    | cons entry rest =>
      have hfields : Text.fields ',' (",".intercalate (entry :: rest)).toList =
          (entry :: rest).map String.toList := by
        rw [Text.fields_eq_iff]
        refine ⟨nofun, List.forall_mem_map.mpr h, ?_⟩
        rw [String.toList_intercalate]
        rfl
      rw [split, hfields, List.map_map]
      rfl
  unfold splitValue
  split
  · rename_i text htext
    cases htext
    split
    · -- An empty text is not even split.
      rename_i hempty
      rw [← hsplit, String.isEmpty_iff.mp hempty]
      rfl
    · rw [hsplit]
  · rename_i hvalue
    exact absurd rfl (hvalue _)

theorem Written.comma_not_mem (h : Written entries addresses malformed) :
    ∀ entry ∈ entries, ',' ∉ entry.toList := by
  have hcomma : Text.isBlank ',' = false := by decide
  induction h with
  | nil => exact nofun
  | address h hpadded _ ih =>
    exact List.forall_mem_cons.mpr ⟨hpadded.not_mem hcomma fun hmem => (h.mem_text hmem).1 rfl, ih⟩
  | blank h _ ih => exact List.forall_mem_cons.mpr ⟨h.not_mem hcomma, ih⟩
  | malformed _ hnone _ _ ih => exact List.forall_mem_cons.mpr ⟨hnone, ih⟩

theorem Written.parse_trimmed (h : Written entries addresses malformed) :
    (parse (trimmed entries)).1 = addresses ∧
      List.Forall₂ Reports (parse (trimmed entries)).2 malformed := by
  induction h with
  | nil => exact ⟨rfl, .nil⟩
  | address h hpadded _ ih =>
    have hfound := address?_of_proper h hpadded
    rw [← address?_trimmed] at hfound
    rw [trimmed_cons (h.not_blank hpadded), parse_cons_some hfound]
    exact ⟨congrArg _ ih.1, ih.2⟩
  | blank h _ ih =>
    rw [trimmed_cons_of_blank h]
    exact ih
  | malformed h _ hblank _ ih =>
    have hnone := h.address?
    rw [← address?_trimmed] at hnone
    rw [trimmed_cons hblank, parse_cons_none hnone]
    exact ⟨ih.1, .cons (reports_complaint _) ih.2⟩

/-- The text of a list of servers is read back as the addresses that it was written of, in order,
whatever blanks, blank entries and malformed entries are in between. What is logged is one error for
each malformed entry, in order, which names it, and nothing else. -/
theorem parse_split_written (h : Written entries addresses malformed) :
    ∃ lines, (splitValue (.text (",".intercalate entries))).map parse = .ok (addresses, lines) ∧
      List.Forall₂ Reports lines malformed := by
  obtain ⟨haddresses, hlines⟩ := h.parse_trimmed
  refine ⟨_, ?_, hlines⟩
  rw [splitValue_intercalate h.comma_not_mem, Except.map, ← haddresses]

theorem parse_split_written_overflowing :
    Written [" cache-0:11211", "\t", "host:70000 ", "10.0.0.2:6379\u3000"]
        [⟨"cache-0", 11211⟩, ⟨"10.0.0.2", 6379⟩] ["host:70000"] ∧
      (splitValue (.text " cache-0:11211,\t,host:70000 ,10.0.0.2:6379\u3000")).map parse =
        .ok ([⟨"cache-0", 11211⟩, ⟨"10.0.0.2", 6379⟩],
          [⟨.error, .serverList, "Invalid server host:70000 in counter store server list"⟩]) := by
  have hplain {host : String} (h : host.toList.all (!Text.isBlank ·) = true) :
      ∀ c ∈ host.toList, Text.isBlank c = false := by simpa using h
  have hcache : (ServerAddress.mk "cache-0" 11211).Proper :=
    ⟨by decide, by decide, by decide, hplain (by decide), by decide, by decide⟩
  have hnode : (ServerAddress.mk "10.0.0.2" 6379).Proper :=
    ⟨by decide, by decide, by decide, hplain (by decide), by decide, by decide⟩
  have hport : Malformed "host:70000 " := by
    refine malformed_iff.mpr fun address h => ?_
    have hnone : address? "host:70000 " = none := by decide +kernel
    rw [address?_eq_some_iff.mpr h] at hnone
    cases hnone
  have hwritten : Written [" cache-0:11211", "\t", "host:70000 ", "10.0.0.2:6379\u3000"]
      [⟨"cache-0", 11211⟩, ⟨"10.0.0.2", 6379⟩] ["host:70000"] := by
    refine .address hcache ⟨[' '], [], ?_, ?_, ?_⟩ (.blank ?_ (.malformed hport ?_ ?_
      (.address hnode ⟨[], ['\u3000'], ?_, ?_, ?_⟩ .nil)))
    all_goals decide +kernel
  obtain ⟨lines, hparse, hlines⟩ := parse_split_written hwritten
  refine ⟨hwritten, hparse.trans ?_⟩
  -- one line, of which the level, the component and the text are known
  cases hlines with
  | @cons line _ _ _ hline hrest =>
    cases hrest
    obtain ⟨level, component, text⟩ := line
    obtain ⟨rfl, rfl, rfl⟩ := hline
    rfl

end

end ServerList

end SlidingTally
