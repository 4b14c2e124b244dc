import Cs300Projects.DistributedStore.Common
import Mathlib.Tactic.Common
import Mathlib.Data.List.Perm.Subperm

/-!
# test_query

The comparison of the shardmaster's configuration with the expected one, in `test_utils.cc`. Servers are
listed with their shards; the response to the query is `none` when the call has failed.
-/

namespace Cs300Projects.DistributedStore

abbrev Config := Std.TreeMap String (List Shard)

/-- One entry of the response: only non-empty vectors are stored. -/
def storeEntry (resMap : Config) (e : String × List Shard) : Config :=
  if e.2.isEmpty then resMap else resMap.insert e.1 e.2

/-- The response as a map. -/
def resMap (config : List (String × List Shard)) : Config := config.foldl storeEntry ∅

/-- The comparison of one server's shards with the expected ones. -/
def compareServer (m : Config) (e : String × List Shard) : Bool :=
  match m[e.1]? with
  -- missing a server
  | none => false
  | some mShards =>
    -- missing/extra shards
    if e.2.length ≠ mShards.length then false
    else e.2.all fun s => mShards.contains s

def testQuery (response : Option (List (String × List Shard))) (m : Config) : Bool :=
  match response with
  | none => false
  | some config =>
    if (resMap config).size ≠ m.size then false
    else (resMap config).toList.all (compareServer m)

section Query

variable {config : List (String × List Shard)} {m : Config}

/-- The servers that have shards are the expected ones. -/
def SameServers (config : List (String × List Shard)) (m : Config) : Prop :=
  ∀ server, server ∈ m ↔ ∃ shards, (server, shards) ∈ config ∧ shards ≠ []

/-- `shards` are listed for a server for which `mShards` are expected. -/
def Pairs (config : List (String × List Shard)) (m : Config) (shards mShards : List Shard) : Prop :=
  ∃ server, (server, shards) ∈ config ∧ shards ≠ [] ∧ m[server]? = some mShards

/-- The same servers have the same shards, as often and in any order. -/
def SameAssignment (config : List (String × List Shard)) (m : Config) : Prop :=
  SameServers config m ∧ ∀ shards mShards, Pairs config m shards mShards → shards.Perm mShards

/-- The same servers have equally many shards, of which each is an expected one. -/
def Alike (config : List (String × List Shard)) (m : Config) : Prop :=
  SameServers config m ∧ ∀ shards mShards, Pairs config m shards mShards →
    shards.length = mShards.length ∧ ∀ s ∈ shards, s ∈ mShards

/-- A shard is listed more often than it is expected. -/
def RepeatsShard (config : List (String × List Shard)) (m : Config) : Prop :=
  ∃ shards mShards s, Pairs config m shards mShards ∧ mShards.count s < shards.count s

lemma getElem?_storeEntry (map : Config) (e : String × List Shard) (server : String) :
    (storeEntry map e)[server]? = if e.1 = server ∧ e.2 ≠ [] then some e.2 else map[server]? := by
  unfold storeEntry
  by_cases he : e.2 = []
  · rw [if_pos (List.isEmpty_iff.2 he), if_neg fun h => h.2 he]
  · rw [if_neg (mt List.isEmpty_iff.1 he), Std.TreeMap.getElem?_insert]
    simp only [Std.LawfulEqCmp.compare_eq_iff_eq, he, ne_eq, not_false_eq_true, and_true]

/-- With distinct servers the map has the non-empty entries. -/
lemma getElem?_foldl_storeEntry (hdistinct : (config.map Prod.fst).Nodup) (map : Config) {server : String} {shards : List Shard} :
    (config.foldl storeEntry map)[server]? = some shards ↔
      (server, shards) ∈ config ∧ shards ≠ [] ∨
      (∀ listed, (server, listed) ∈ config → listed = []) ∧ map[server]? = some shards := by
  induction config generalizing map with
  | nil => simp
  | cons e config ih =>
    obtain ⟨first, listed⟩ := e
    rw [List.map_cons, List.nodup_cons] at hdistinct
    have hfirst : ∀ other, (first, other) ∉ config := by
      intro other hmem
      exact hdistinct.1 (List.mem_map.2 ⟨_, hmem, rfl⟩)
    rw [List.foldl_cons, ih hdistinct.2, getElem?_storeEntry]
    by_cases hserver : first = server
    · subst hserver
      by_cases hlisted : listed = []
      · grind
      · grind
    · grind

lemma getElem?_resMap (hdistinct : (config.map Prod.fst).Nodup) {server : String} {shards : List Shard} :
    (resMap config)[server]? = some shards ↔ (server, shards) ∈ config ∧ shards ≠ [] := by
  unfold resMap
  rw [getElem?_foldl_storeEntry hdistinct]
  simp

lemma compareServer_iff (e : String × List Shard) : compareServer m e = true ↔
    ∃ mShards, m[e.1]? = some mShards ∧ e.2.length = mShards.length ∧ ∀ s ∈ e.2, s ∈ mShards := by
  unfold compareServer
  cases hm : m[e.1]? with
  | none => simp
  | some mShards => simp

/-- Of two maps of one size, of which one has the servers of the other, both have the same. -/
lemma mem_of_size_eq {map map' : Config} (hsize : map.size = map'.size) (hsub : ∀ server, server ∈ map → server ∈ map')
    {server : String} (hmem : server ∈ map') : server ∈ map := by
  have hsubset : map.keys ⊆ map'.keys := by
    intro k hk
    rw [Std.TreeMap.mem_keys] at hk ⊢
    exact hsub k hk
  have hperm : map.keys.Perm map'.keys := by
    apply (List.subperm_of_subset Std.TreeMap.nodup_keys hsubset).perm_of_length_le
    rw [Std.TreeMap.length_keys, Std.TreeMap.length_keys, hsize]
  rw [← Std.TreeMap.mem_keys] at hmem ⊢
  exact hperm.mem_iff.2 hmem

lemma size_eq_of_mem_iff {map map' : Config} (h : ∀ server, server ∈ map ↔ server ∈ map') : map.size = map'.size := by
  rw [← Std.TreeMap.length_keys, ← Std.TreeMap.length_keys]
  apply List.Perm.length_eq
  rw [List.perm_ext_iff_of_nodup Std.TreeMap.nodup_keys Std.TreeMap.nodup_keys]
  intro server
  rw [Std.TreeMap.mem_keys, Std.TreeMap.mem_keys, h]

/-- What the comparison finds out. -/
lemma testQuery_eq_true_iff (hdistinct : (config.map Prod.fst).Nodup) :
    testQuery (some config) m = true ↔ Alike config m := by
  have hmem : ∀ server, server ∈ resMap config ↔ ∃ shards, (server, shards) ∈ config ∧ shards ≠ [] := by
    intro server
    rw [Std.TreeMap.mem_iff_isSome_getElem?, Option.isSome_iff_exists]
    exact exists_congr fun shards => getElem?_resMap hdistinct
  have htest : testQuery (some config) m = true ↔ (resMap config).size = m.size ∧
      ∀ server shards, (server, shards) ∈ config ∧ shards ≠ [] → compareServer m (server, shards) = true := by
    unfold testQuery
    simp only [ne_eq, ite_not, Bool.if_false_right, Bool.and_eq_true, decide_eq_true_eq, List.all_eq_true, Prod.forall,
      Std.TreeMap.mem_toList_iff_getElem?_eq_some, getElem?_resMap hdistinct]
  rw [htest]
  simp only [compareServer_iff]
  constructor
  · rintro ⟨hsize, hservers⟩
    refine ⟨fun server => ?_, ?_⟩
    · rw [← hmem]
      have hsub : ∀ server, server ∈ resMap config → server ∈ m := by
        intro server hserver
        obtain ⟨shards, hshards⟩ := (hmem server).1 hserver
        obtain ⟨mShards, hm, -⟩ := hservers server shards hshards
        exact Std.TreeMap.mem_iff_isSome_getElem?.2 (by rw [hm]; rfl)
      exact ⟨mem_of_size_eq hsize hsub, hsub server⟩
    · rintro shards mShards ⟨server, hlisted, hne, hm⟩
      obtain ⟨mShards', hm', halike⟩ := hservers server shards ⟨hlisted, hne⟩
      rw [hm, Option.some.injEq] at hm'
      exact hm' ▸ halike
  · rintro ⟨hservers, hshards⟩
    refine ⟨size_eq_of_mem_iff fun server => (hmem server).trans (hservers server).symm, ?_⟩
    rintro server shards ⟨hlisted, hne⟩
    have hserver := (hservers server).2 ⟨shards, hlisted, hne⟩
    obtain ⟨mShards, hm⟩ := Option.isSome_iff_exists.1 (Std.TreeMap.mem_iff_isSome_getElem?.1 hserver)
    exact ⟨mShards, hm, hshards shards mShards ⟨server, hlisted, hne, hm⟩⟩

/-- Lists of one length are permutations of each other if no element is more often in the first one. -/
lemma perm_iff_count_le {α : Type*} [DecidableEq α] {xs ys : List α} (hlength : xs.length = ys.length) :
    xs.Perm ys ↔ ∀ a, xs.count a ≤ ys.count a := by
  constructor
  · intro h a
    exact Nat.le_of_eq (h.count_eq a)
  · intro h
    exact (List.subperm_ext_iff.2 fun a _ => h a).perm_of_length_le (Nat.le_of_eq hlength.symm)

lemma Alike.sameAssignment_iff (h : Alike config m) : SameAssignment config m ↔ ¬ RepeatsShard config m := by
  constructor
  · rintro ⟨-, hsame⟩ ⟨shards, mShards, s, hpair, hlt⟩
    rw [(hsame shards mShards hpair).count_eq] at hlt
    exact Nat.lt_irrefl _ hlt
  · intro hrepeats
    refine ⟨h.1, fun shards mShards hpair => ?_⟩
    rw [perm_iff_count_le (h.2 shards mShards hpair).1]
    intro s
    by_contra hlt
    exact hrepeats ⟨shards, mShards, s, hpair, Nat.not_le.1 hlt⟩

lemma SameAssignment.alike (h : SameAssignment config m) : Alike config m :=
  ⟨h.1, fun shards mShards hpair => ⟨(h.2 shards mShards hpair).length_eq, fun _ hs => (h.2 shards mShards hpair).subset hs⟩⟩

end Query

/-- The comparison is right unless it is only a repetition that tells the shards of the two apart. -/
theorem testQuery_right_iff (config : List (String × List Shard)) (m : Config) (hdistinct : (config.map Prod.fst).Nodup) :
    (testQuery (some config) m = true ↔ SameAssignment config m) ↔ ¬ (Alike config m ∧ RepeatsShard config m) := by
  rw [testQuery_eq_true_iff hdistinct]
  constructor
  · rintro h ⟨halike, hrepeats⟩
    exact halike.sameAssignment_iff.1 (h.1 halike) hrepeats
  · intro h
    refine ⟨fun halike => halike.sameAssignment_iff.2 fun hrepeats => h ⟨halike, hrepeats⟩, SameAssignment.alike⟩

/-- Two servers with shards, in another order than expected, and one without. -/
def sampleConfig : List (String × List Shard) :=
  [("b", [⟨5#32, 9#32⟩, ⟨0#32, 4#32⟩]), ("c", []), ("a", [⟨10#32, 20#32⟩])]

def sampleExpected : Config := (Std.TreeMap.insert ∅ "a" [⟨10#32, 20#32⟩]).insert "b" [⟨0#32, 4#32⟩, ⟨5#32, 9#32⟩]

lemma sampleExpected_getElem? (server : String) (shards : List Shard) : sampleExpected[server]? = some shards ↔
    "b" = server ∧ shards = [⟨0#32, 4#32⟩, ⟨5#32, 9#32⟩] ∨ "a" = server ∧ shards = [⟨10#32, 20#32⟩] := by
  unfold sampleExpected
  rw [Std.TreeMap.getElem?_insert, Std.TreeMap.getElem?_insert]
  simp only [Std.LawfulEqCmp.compare_eq_iff_eq]
  by_cases hb : "b" = server
  · subst hb
    simp [eq_comm]
  · by_cases ha : "a" = server
    · subst ha
      simp [eq_comm]
    · simp [ha, hb]

lemma sampleConfig_pairs {shards mShards : List Shard} (h : Pairs sampleConfig sampleExpected shards mShards) :
    shards.Perm mShards := by
  obtain ⟨server, hlisted, hne, hm⟩ := h
  rw [sampleExpected_getElem?] at hm
  unfold sampleConfig at hlisted
  simp only [List.mem_cons, Prod.mk.injEq, List.not_mem_nil, or_false] at hlisted
  obtain ⟨rfl, rfl⟩ | ⟨rfl, rfl⟩ | ⟨rfl, rfl⟩ := hlisted
  · obtain ⟨-, rfl⟩ | ⟨hserver, -⟩ := hm
    · exact List.Perm.swap _ _ _
    · exact absurd hserver (by decide)
  · exact absurd rfl hne
  · obtain ⟨hserver, -⟩ | ⟨-, rfl⟩ := hm
    · exact absurd hserver (by decide)
    · exact List.Perm.refl _

theorem testQuery_right_sample : testQuery (some sampleConfig) sampleExpected = true := by
  have hsame : SameAssignment sampleConfig sampleExpected := by
    refine ⟨fun server => ?_, fun shards mShards hpair => sampleConfig_pairs hpair⟩
    rw [Std.TreeMap.mem_iff_isSome_getElem?, Option.isSome_iff_exists]
    simp only [sampleExpected_getElem?, sampleConfig, List.mem_cons, Prod.mk.injEq, List.not_mem_nil, or_false]
    constructor
    · rintro ⟨shards, ⟨rfl, -⟩ | ⟨rfl, -⟩⟩
      · exact ⟨_, Or.inl ⟨rfl, rfl⟩, List.cons_ne_nil _ _⟩
      · exact ⟨_, Or.inr (Or.inr ⟨rfl, rfl⟩), List.cons_ne_nil _ _⟩
    · rintro ⟨shards, ⟨rfl, -⟩ | ⟨-, rfl⟩ | ⟨rfl, -⟩, hne⟩
      · exact ⟨_, Or.inl ⟨rfl, rfl⟩⟩
      · exact absurd rfl hne
      · exact ⟨_, Or.inr ⟨rfl, rfl⟩⟩
  refine ((testQuery_right_iff sampleConfig sampleExpected (by decide)).2 ?_).2 hsame
  rintro ⟨-, shards, mShards, s, hpair, hlt⟩
  rw [(sampleConfig_pairs hpair).count_eq] at hlt
  exact Nat.lt_irrefl _ hlt

/-- A server that has one shard twice passes for a server with two different ones. -/
theorem testQuery_not_right : ¬ ∀ (config : List (String × List Shard)) (m : Config), (config.map Prod.fst).Nodup →
    (∀ (server : String) (shards : List Shard), m[server]? = some shards → shards ≠ []) →
    (testQuery (some config) m = true ↔ SameAssignment config m) := by
  intro h
  have hget : ∀ (server : String) (shards : List Shard), (Std.TreeMap.insert (∅ : Config) "a" [⟨0#32, 4#32⟩, ⟨5#32, 9#32⟩])[server]? = some shards ↔
      "a" = server ∧ shards = [⟨0#32, 4#32⟩, ⟨5#32, 9#32⟩] := by
    intro server shards
    rw [Std.TreeMap.getElem?_insert]
    by_cases hserver : "a" = server
    · simp [hserver, eq_comm]
    · simp [hserver]
  have hdistinct : (([("a", [⟨0#32, 4#32⟩, ⟨0#32, 4#32⟩])] : List (String × List Shard)).map Prod.fst).Nodup :=
    List.nodup_singleton _
  have htrue : testQuery (some [("a", [⟨0#32, 4#32⟩, ⟨0#32, 4#32⟩])])
      (Std.TreeMap.insert (∅ : Config) "a" [⟨0#32, 4#32⟩, ⟨5#32, 9#32⟩]) = true := by
    rw [testQuery_eq_true_iff hdistinct]
    refine ⟨fun server => ?_, ?_⟩
    · rw [Std.TreeMap.mem_iff_isSome_getElem?, Option.isSome_iff_exists]
      constructor
      · rintro ⟨shards, hm⟩
        exact ⟨_, List.mem_singleton.2 (by rw [((hget server shards).1 hm).1]), List.cons_ne_nil _ _⟩
      · rintro ⟨shards, hlisted, -⟩
        rw [List.mem_singleton, Prod.mk.injEq] at hlisted
        exact ⟨_, (hget _ _).2 ⟨hlisted.1.symm, rfl⟩⟩
    · rintro shards mShards ⟨server, hlisted, -, hm⟩
      rw [List.mem_singleton, Prod.mk.injEq] at hlisted
      rw [hlisted.2, ((hget server mShards).1 hm).2]
      decide
  have hsame := (h _ _ hdistinct fun server shards hm => by
    rw [((hget server shards).1 hm).2]
    exact List.cons_ne_nil _ _).1 htrue
  have hperm := hsame.2 _ _ ⟨"a", List.mem_singleton_self _, List.cons_ne_nil _ _, (hget _ _).2 ⟨rfl, rfl⟩⟩
  exact absurd hperm (by decide)

end Cs300Projects.DistributedStore
