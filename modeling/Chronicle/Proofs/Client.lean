/-
Chronicle/Proofs/Client.lean

The configuration of a worker's client, and which clients it tells apart.

Settings made later replace earlier ones: the last customiser that sets a key gives its
value, and a built-in setting stays where no customiser sets its key
(`Connector.configured_clientConfig`).

A client id is made of the prefix, the group, the host and the worker with dots between
them.  All but the worker may have dots in them, but prefix and host are the same for all
clients of a connector on a host, and the last dot stands in front of the worker
(`Connector.clientId_inj`).

Main result: `Connector.clients_configured`.
-/
import Chronicle.Client
import Chronicle.Proofs.Dictionary
import Chronicle.Proofs.Text

namespace Chronicle

/-! ### Settings made on top of others -/

/-- A configuration has, for every key, the last of the values that some settings give it.
It has the value of the base where they give none, and it has no other keys. -/
structure Configured (base settings : List (String × String)) (config : Dictionary String) :
    Prop where
  last : ∀ before p behind, settings = before ++ p :: behind → (∀ q ∈ behind, q.1 ≠ p.1) →
    config.get? p.1 = some p.2
  kept : ∀ key, (∀ p ∈ settings, p.1 ≠ key) → config.get? key = valueOf? key base
  keys : ∀ key, key ∈ config.keys ↔ key ∈ base.map Prod.fst ∨ ∃ p ∈ settings, p.1 = key

theorem configured_ofList {base : List (String × String)} (hbase : (base.map Prod.fst).Nodup)
    (settings : List (String × String)) :
    Configured base settings (Dictionary.ofList (base ++ settings)) where
  last := by
    rintro before p behind rfl hbehind
    rw [Dictionary.get?_ofList, List.append_cons before, ← List.append_assoc,
      lastValue?_append_of_ne _ hbehind, ← List.append_assoc, lastValue?_concat, if_pos rfl]
  kept := by
    intro key hkey
    rw [Dictionary.get?_ofList, lastValue?_append_of_ne _ hkey, lastValue?_of_nodup hbase]
  keys := by
    intro key
    rw [Dictionary.mem_keys_ofList, List.map_append, List.mem_append]
    exact or_congr_right List.mem_map

/-! ### Texts with dots -/

/-- The last mark of a text divides it in one way only. -/
theorem append_cons_inj_of_not_mem {α : Type} {mark : α} {xs ys ds es : List α}
    (hds : mark ∉ ds) (hes : mark ∉ es) (h : xs ++ mark :: ds = ys ++ mark :: es) :
    xs = ys ∧ ds = es := by
  have hmark : ∀ {front rest rest' : List α}, mark ∉ rest →
      mark :: rest = front ++ mark :: rest' → front = [] ∧ rest = rest' := by
    intro front rest rest' hrest heq
    cases front with
    | nil => exact ⟨rfl, (List.cons.inj heq).2⟩
    | cons c front =>
      -- the mark of the right side would be in the rest of the left one
      have hmem : mark ∈ rest := by
        rw [(List.cons.inj heq).2]
        exact List.mem_append_right _ List.mem_cons_self
      exact absurd hmem hrest
  rcases List.append_eq_append_iff.1 h with ⟨front, rfl, hfront⟩ | ⟨front, rfl, hfront⟩
  · obtain ⟨rfl, heq⟩ := hmark hds hfront
    exact ⟨(List.append_nil xs).symm, heq⟩
  · obtain ⟨rfl, heq⟩ := hmark hes hfront
    exact ⟨List.append_nil ys, heq.symm⟩

/-- What stands in front of a number behind a dot, and the number, are told from the text. -/
theorem numbered_inj {front other : String} {n m : Nat} :
    s!"{front}.{n}" = s!"{other}.{m}" ↔ front = other ∧ n = m := by
  constructor
  · intro h
    have hchars := congrArg String.toList h
    simp only [String.toList_append, toString, Nat.repr_eq_ofList_toDigits,
      String.toList_ofList, List.append_assoc] at hchars
    -- there is no dot in a number
    have hdot : ∀ k, '.' ∉ Nat.toDigits 10 k := Text.not_mem_toDigits rfl
    obtain ⟨hfront, hdigits⟩ := append_cons_inj_of_not_mem (hdot n) (hdot m) hchars
    exact ⟨String.toList_injective hfront, Text.toDigits_injective hdigits⟩
  · rintro ⟨rfl, rfl⟩
    rfl

namespace Connector

variable {c : Connector} {host group group' : String} {worker worker' : Nat}

/-! ### Configurations -/

/-- Changes are kept in the order in which they are added. -/
theorem customisers_foldl (c : Connector) (fs : List Customiser) :
    (fs.foldl withCustomiser c).customisers = c.customisers ++ fs := by
  induction fs generalizing c with
  | nil => exact (List.append_nil _).symm
  | cons f fs ih =>
    rw [List.foldl_cons, ih]
    exact List.append_assoc _ _ _

theorem nodup_builtIn (c : Connector) (host group : String) (worker : Nat) :
    ((c.builtIn host group worker).map Prod.fst).Nodup := by
  show ["bootstrap.servers", "group.id", "client.id", "enable.auto.commit", "auto.offset.reset",
    "session.timeout.ms", "fetch.min.bytes", "fetch.wait.max.ms"].Nodup
  decide

theorem configured_clientConfig (c : Connector) (host : Option String) (group : String)
    (worker : Nat) : Configured (c.builtIn (host.getD "localhost") group worker)
      (c.customisers.map fun f => f group worker) (c.clientConfig host group worker) :=
  configured_ofList (c.nodup_builtIn _ group worker) _

/-! ### Identity -/

theorem groupId_inj : c.groupId group = c.groupId group' ↔ group = group' :=
  String.append_right_inj _

/-- **Client ids.**  The group and the worker are told from the id, whatever dots there are
in the prefix, the group and the host. -/
theorem clientId_inj : c.clientId host group worker = c.clientId host group' worker' ↔
    group = group' ∧ worker = worker' := by
  have hid (g : String) (w : Nat) :
      ∃ front, front = s!"{c.groupId g}.{host}" ∧ c.clientId host g w = s!"{front}.{w}" :=
    ⟨_, rfl, rfl⟩
  obtain ⟨front, hfront, hid₁⟩ := hid group worker
  obtain ⟨other, hother, hid₂⟩ := hid group' worker'
  -- the host and the dot in front of it are the same on both sides
  rw [hid₁, hid₂, numbered_inj, hfront, hother, String.append_left_inj, String.append_left_inj]
  exact and_congr_left fun _ => groupId_inj

/-- No customiser sets the group id or the client id. -/
def KeepsIdentity (fs : List Customiser) : Prop :=
  ∀ f ∈ fs, ∀ group worker, (f group worker).1 ≠ "group.id" ∧ (f group worker).1 ≠ "client.id"

/-- **Configurations of clients.**  Add customisers to a new connector one after another.
Whatever the host, the configuration of a worker has for every key the value of the last
customiser that sets it, or else the built-in one, and no other keys.

If the customisers leave both ids alone, then on one host two workers have the same group
id if and only if their groups are the same, and the same client id if and only if they are
the same worker of the same group. -/
theorem clients_configured (brokers topic groupPrefix : String) (host : Option String)
    (fs : List Customiser) :
    let c := fs.foldl withCustomiser (new brokers topic groupPrefix)
    (∀ group worker, Configured (c.builtIn (host.getD "localhost") group worker)
        (fs.map fun f => f group worker) (c.clientConfig host group worker)) ∧
      (KeepsIdentity fs → ∀ group worker group' worker',
        let config := c.clientConfig host group worker
        let config' := c.clientConfig host group' worker'
        (config.get? "group.id" = config'.get? "group.id" ↔ group = group') ∧
          (config.get? "client.id" = config'.get? "client.id" ↔
            group = group' ∧ worker = worker')) := by
  intro c
  have hconfigured : ∀ group worker, Configured (c.builtIn (host.getD "localhost") group worker)
      (fs.map fun f => f group worker) (c.clientConfig host group worker) := by
    intro group worker
    have hcustomisers : c.customisers = fs := customisers_foldl (new brokers topic groupPrefix) fs
    have hconfig := c.configured_clientConfig host group worker
    rwa [hcustomisers] at hconfig
  refine ⟨hconfigured, fun hfs group worker group' worker' => ?_⟩
  -- both ids are the built-in ones
  have hgroup (g : String) (w : Nat) :
      (c.clientConfig host g w).get? "group.id" = some (c.groupId g) := by
    refine (hconfigured g w).kept _ fun p hp => ?_
    obtain ⟨f, hf, rfl⟩ := List.mem_map.1 hp
    exact (hfs f hf g w).1
  have hclient (g : String) (w : Nat) : (c.clientConfig host g w).get? "client.id" =
      some (c.clientId (host.getD "localhost") g w) := by
    refine (hconfigured g w).kept _ fun p hp => ?_
    obtain ⟨f, hf, rfl⟩ := List.mem_map.1 hp
    exact (hfs f hf g w).2
  intro config config'
  constructor
  · rw [hgroup, hgroup, Option.some.injEq]
    exact groupId_inj
  · rw [hclient, hclient, Option.some.injEq]
    exact clientId_inj

/-- Customisers of which the last one replaces what the first one sets. -/
def rackCustomisers : List Customiser :=
  [fun _ _ => ("client.rack", "none"), fun _ _ => ("fetch.min.bytes", "1"),
    fun group worker => ("client.rack", s!"{group}-{worker}")]

/-- With dots in the prefix, in a group and in the host, the rack is the one that is set
last, other settings are the built-in ones, and the clients of worker 11 of `c` and of
worker 1 of `c.1` are told apart. -/
theorem dotted_clients_configured :
    let c := rackCustomisers.foldl withCustomiser (new "kafka:9092" "events" "a.b")
    let config := c.clientConfig (some "1.2") "c" 11
    config.get? "client.rack" = some "c-11" ∧ config.get? "fetch.min.bytes" = some "1" ∧
      config.get? "session.timeout.ms" = some "30000" ∧ "client.dns.lookup" ∉ config.keys ∧
      config.get? "group.id" ≠ (c.clientConfig (some "1.2") "c.1" 1).get? "group.id" ∧
      config.get? "client.id" ≠ (c.clientConfig (some "1.2") "c.1" 1).get? "client.id" := by
  intro c config
  obtain ⟨hconfigured, hids⟩ :=
    clients_configured "kafka:9092" "events" "a.b" (some "1.2") rackCustomisers
  have hconfig := hconfigured "c" 11
  have hkeeps : KeepsIdentity rackCustomisers := by
    intro f hf group worker
    have hrack : "client.rack" ≠ "group.id" ∧ "client.rack" ≠ "client.id" := by decide
    have hfetch : "fetch.min.bytes" ≠ "group.id" ∧ "fetch.min.bytes" ≠ "client.id" := by decide
    simp only [rackCustomisers, List.mem_cons, List.not_mem_nil, or_false] at hf
    rcases hf with rfl | rfl | rfl
    · exact hrack
    · exact hfetch
    · exact hrack
  obtain ⟨hgroup, hclient⟩ := hids hkeeps "c" 11 "c.1" 1
  refine ⟨?_, ?_, ?_, ?_, ?_, ?_⟩
  · exact hconfig.last [("client.rack", "none"), ("fetch.min.bytes", "1")]
      ("client.rack", "c-11") [] rfl nofun
  · exact hconfig.last [("client.rack", "none")] ("fetch.min.bytes", "1")
      [("client.rack", "c-11")] rfl (by decide)
  · exact hconfig.kept "session.timeout.ms" (by decide)
  · rw [hconfig.keys]
    decide
  · exact fun heq => absurd (hgroup.1 heq) (by decide)
  · exact fun heq => absurd (hclient.1 heq) (by decide)

end Connector

end Chronicle
