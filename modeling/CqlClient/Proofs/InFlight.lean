import CqlClient.InFlight
import CqlClient.Message.Frame
import Std.Data.TreeMap.Lemmas
import Mathlib.Data.List.Nodup
import Mathlib.Data.List.Perm.Subperm

/-!
The table of waiters, stream by stream. A stream is given to a waiter only while it has none, and it
is never the stream of events. A waiter gets no stream only when all of them are taken.
-/

namespace CqlClient.InFlight

variable {α : Type}

theorem get?_empty (stream : Int16) : (empty : InFlight α).get? stream = none := by
  rw [get?, empty, Std.TreeMap.getElem?_emptyc]

/-- The stream whose turn it is counts up to the number of streams and starts over. -/
theorem toInt_turn (tried : UInt64) : (turn tried).toInt = tried.toNat % streamCount := by
  have hlt : tried.toNat % streamCount < 32768 := Nat.mod_lt _ (by decide)
  rw [turn, Int16.toInt_ofNat', show Int16.size = 65536 from rfl,
    Int.bmod_eq_of_le (by omega) (by omega)]
  rfl

theorem toInt_turn_nonneg (tried : UInt64) : 0 ≤ (turn tried).toInt := by
  rw [toInt_turn]
  exact Int.natCast_nonneg _

theorem ne_eventStream {stream : Int16} (hstream : 0 ≤ stream.toInt) :
    stream ≠ Frame.eventStream := by
  intro heq
  rw [heq] at hstream
  exact absurd hstream (by decide)

/-- Every stream that is not negative has its turn within one round. -/
theorem exists_turn_eq (tried : UInt64) {stream : Int16} (hstream : 0 ≤ stream.toInt) :
    ∃ ahead < streamCount, turn (tried + UInt64.ofNat ahead) = stream := by
  have hlt : stream.toInt < 32768 := Int16.toInt_lt stream
  refine ⟨(stream.toInt.toNat + (32768 - tried.toNat % 32768)) % 32768,
    Nat.mod_lt _ (by decide), ?_⟩
  apply Int16.toInt_inj.mp
  -- The rounds divide the range of the counter, so its wrapping around does not show.
  rw [toInt_turn, UInt64.toNat_add, UInt64.toNat_ofNat', show streamCount = 32768 from rfl]
  omega

theorem add_ofNat_zero (tried : UInt64) : tried + UInt64.ofNat 0 = tried := UInt64.add_zero tried

theorem add_one_add_ofNat (tried : UInt64) (ahead : Nat) :
    tried + 1 + UInt64.ofNat ahead = tried + UInt64.ofNat (ahead + 1) := by
  rw [UInt64.ofNat_add, UInt64.add_assoc, UInt64.add_comm 1]
  rfl

theorem findFree_eq_some {pending : Std.TreeMap Int16 α} {tries : Nat} {tried later : UInt64}
    {stream : Int16} (h : findFree pending tries tried = some (stream, later)) :
    pending[stream]? = none ∧ 0 ≤ stream.toInt := by
  induction tries generalizing tried with
  | zero => cases h
  | succ tries ih =>
      rw [findFree] at h
      split at h
      · exact ih h
      · next hfree =>
        cases h
        rw [Std.TreeMap.contains_eq_isSome_getElem?, Option.not_isSome_iff_eq_none] at hfree
        exact ⟨hfree, toInt_turn_nonneg tried⟩

theorem findFree_eq_none {pending : Std.TreeMap Int16 α} {tries : Nat} {tried : UInt64} :
    findFree pending tries tried = none ↔
      ∀ ahead < tries, pending.contains (turn (tried + UInt64.ofNat ahead)) := by
  induction tries generalizing tried with
  | zero => exact ⟨fun _ ahead hahead => absurd hahead (Nat.not_lt_zero ahead), fun _ => rfl⟩
  | succ tries ih =>
      rw [findFree]
      by_cases hbusy : pending.contains (turn tried)
      · rw [if_pos hbusy, ih]
        constructor
        · intro hall ahead hahead
          cases ahead with
          | zero => rwa [add_ofNat_zero]
          | succ ahead =>
              rw [← add_one_add_ofNat]
              exact hall ahead (Nat.lt_of_succ_lt_succ hahead)
        · intro hall ahead hahead
          rw [add_one_add_ofNat]
          exact hall (ahead + 1) (Nat.succ_lt_succ hahead)
      · rw [if_neg hbusy]
        refine ⟨nofun, ?_⟩
        intro hall
        have hzero := hall 0 (Nat.zero_lt_succ tries)
        rw [add_ofNat_zero] at hzero
        exact absurd hzero hbusy

theorem register_eq_some {table next : InFlight α} {waiter : α} {stream : Int16}
    (h : table.register waiter = some (stream, next)) :
    table.get? stream = none ∧ 0 ≤ stream.toInt ∧
      ∀ other, next.get? other = if other = stream then some waiter else table.get? other := by
  unfold register at h
  split at h
  · cases h
  · split at h
    · cases h
    · next hfound =>
      cases h
      obtain ⟨hfree, hstream⟩ := findFree_eq_some hfound
      refine ⟨hfree, hstream, ?_⟩
      intro other
      rw [get?, Std.TreeMap.getElem?_insert, get?]
      simp only [Std.LawfulEqCmp.compare_eq_iff_eq, @eq_comm _ stream other]

theorem take?_eq_none {table : InFlight α} {stream : Int16} :
    table.take? stream = none ↔ table.get? stream = none := by
  rw [take?, Option.map_eq_none_iff]

theorem take?_eq_some {table next : InFlight α} {waiter : α} {stream : Int16}
    (h : table.take? stream = some (waiter, next)) :
    table.get? stream = some waiter ∧
      ∀ other, next.get? other = if other = stream then none else table.get? other := by
  obtain ⟨found, hfound, heq⟩ := Option.map_eq_some_iff.mp h
  cases heq
  refine ⟨hfound, ?_⟩
  intro other
  rw [get?, Std.TreeMap.getElem?_erase, get?]
  simp only [Std.LawfulEqCmp.compare_eq_iff_eq, @eq_comm _ stream other]

theorem get?_drain (table : InFlight α) (stream : Int16) : table.drain.2.get? stream = none :=
  Std.TreeMap.getElem?_emptyc

/-! ## The entries of a table -/

/-- The streams that have a waiter, each with it. -/
def entries (table : InFlight α) : List (Int16 × α) := table.pending.toList

/-- The streams that have a waiter. -/
def streams (table : InFlight α) : List Int16 := table.entries.map Prod.fst

/-- The waiters, each as often as it waits. -/
def waiters (table : InFlight α) : List α := table.entries.map Prod.snd

theorem mem_entries {table : InFlight α} {stream : Int16} {waiter : α} :
    (stream, waiter) ∈ table.entries ↔ table.get? stream = some waiter :=
  Std.TreeMap.mem_toList_iff_getElem?_eq_some

theorem entries_eq_nil {table : InFlight α} (h : ∀ stream, table.get? stream = none) :
    table.entries = [] := by
  apply List.eq_nil_iff_forall_not_mem.mpr
  rintro ⟨stream, waiter⟩ hmem
  cases (h stream).symm.trans (mem_entries.mp hmem)

theorem entries_drain (table : InFlight α) : table.drain.2.entries = [] :=
  entries_eq_nil (get?_drain table)

theorem length_entries (table : InFlight α) : table.entries.length = table.size :=
  Std.TreeMap.length_toList

theorem length_waiters (table : InFlight α) : table.waiters.length = table.size := by
  rw [waiters, List.length_map, length_entries]

theorem nodup_streams (table : InFlight α) : table.streams.Nodup := by
  rw [streams, entries, Std.TreeMap.map_fst_toList_eq_keys]
  exact Std.TreeMap.nodup_keys

theorem mem_streams {table : InFlight α} {stream : Int16} :
    stream ∈ table.streams ↔ (table.get? stream).isSome := by
  rw [Option.isSome_iff_exists, streams, List.mem_map]
  constructor
  · rintro ⟨⟨_, waiter⟩, hmem, rfl⟩
    exact ⟨waiter, mem_entries.mp hmem⟩
  · rintro ⟨waiter, hwaiter⟩
    exact ⟨(stream, waiter), mem_entries.mpr hwaiter, rfl⟩

/-- Tables that differ by one stream differ by one entry. -/
theorem entries_perm_cons {table next : InFlight α} {stream : Int16} {waiter : α}
    (hstream : table.get? stream = some waiter)
    (hnext : ∀ other, next.get? other = if other = stream then none else table.get? other) :
    table.entries.Perm ((stream, waiter) :: next.entries) := by
  have hfresh : (stream, waiter) ∉ next.entries := by
    rw [mem_entries, hnext, if_pos rfl]
    nofun
  have hnodup (t : InFlight α) : t.entries.Nodup := List.Nodup.of_map _ (nodup_streams t)
  apply (List.perm_ext_iff_of_nodup (hnodup table)
    (List.nodup_cons.mpr ⟨hfresh, hnodup next⟩)).mpr
  rintro ⟨other, found⟩
  rw [List.mem_cons, mem_entries, mem_entries, hnext, Prod.mk.injEq]
  by_cases hother : other = stream
  · rw [if_pos hother, hother, hstream]
    simp [@eq_comm _ found]
  · simp [hother]

theorem entries_perm_of_register {table next : InFlight α} {stream : Int16} {waiter : α}
    (h : table.register waiter = some (stream, next)) :
    next.entries.Perm ((stream, waiter) :: table.entries) := by
  obtain ⟨hfree, -, hnext⟩ := register_eq_some h
  apply entries_perm_cons
  · rw [hnext, if_pos rfl]
  · intro other
    rw [hnext]
    by_cases hother : other = stream
    · rw [if_pos hother, hother, hfree]
    · rw [if_neg hother, if_neg hother]

theorem entries_perm_of_take? {table next : InFlight α} {stream : Int16} {waiter : α}
    (h : table.take? stream = some (waiter, next)) :
    table.entries.Perm ((stream, waiter) :: next.entries) := by
  obtain ⟨hwaiter, hnext⟩ := take?_eq_some h
  exact entries_perm_cons hwaiter hnext

theorem size_of_register {table next : InFlight α} {stream : Int16} {waiter : α}
    (h : table.register waiter = some (stream, next)) : next.size = table.size + 1 := by
  have hlength := (entries_perm_of_register h).length_eq
  rwa [List.length_cons, length_entries, length_entries] at hlength

/-! ## A full table -/

/-- The streams of a table that are in range stand at as many places, so a table of full size has
them all. -/
theorem isSome_of_streamCount_le_size {table : InFlight α}
    (hrange : ∀ stream ∈ table.streams, 0 ≤ stream.toInt) (hfull : streamCount ≤ table.size)
    {stream : Int16} (hstream : 0 ≤ stream.toInt) : (table.get? stream).isSome := by
  have hplace (other : Int16) : other.toInt.toNat ∈ List.range streamCount := by
    have hlt : other.toInt < 32768 := Int16.toInt_lt other
    rw [List.mem_range, show streamCount = 32768 from rfl]
    omega
  have hinj {first second : Int16} (hfirst : 0 ≤ first.toInt) (hsecond : 0 ≤ second.toInt)
      (heq : first.toInt.toNat = second.toInt.toNat) : first = second := by
    apply Int16.toInt_inj.mp
    omega
  have hnodup : (table.streams.map (·.toInt.toNat)).Nodup := by
    refine List.Nodup.map_on ?_ (nodup_streams table)
    intro first hfirst second hsecond heq
    exact hinj (hrange first hfirst) (hrange second hsecond) heq
  have hsub : table.streams.map (·.toInt.toNat) ⊆ List.range streamCount := by
    intro place hmem
    obtain ⟨other, -, rfl⟩ := List.mem_map.mp hmem
    exact hplace other
  have hlength : (List.range streamCount).length ≤
      (table.streams.map (·.toInt.toNat)).length := by
    rwa [List.length_range, List.length_map, streams, List.length_map, length_entries]
  have hperm := (List.subperm_of_subset hnodup hsub).perm_of_length_le hlength
  obtain ⟨other, hother, heq⟩ := List.mem_map.mp (hperm.mem_iff.mpr (hplace stream))
  exact hinj (hrange other hother) hstream heq ▸ mem_streams.mp hother

/-- A waiter finds no stream exactly if every stream that is not negative has one already. -/
theorem register_eq_none {table : InFlight α}
    (hrange : ∀ stream ∈ table.streams, 0 ≤ stream.toInt) {waiter : α} :
    table.register waiter = none ↔
      ∀ stream : Int16, 0 ≤ stream.toInt → (table.get? stream).isSome := by
  constructor
  · intro hnone stream hstream
    rw [register] at hnone
    split at hnone
    · next hfull => exact isSome_of_streamCount_le_size hrange hfull hstream
    · split at hnone
      · next hnofree =>
        obtain ⟨ahead, hahead, hturn⟩ := exists_turn_eq table.tried hstream
        rw [get?, ← Std.TreeMap.contains_eq_isSome_getElem?, ← hturn]
        exact findFree_eq_none.mp hnofree ahead hahead
      · cases hnone
  · intro hall
    have hnofree : findFree table.pending streamCount table.tried = none := by
      apply findFree_eq_none.mpr
      intro ahead _
      rw [Std.TreeMap.contains_eq_isSome_getElem?]
      exact hall _ (toInt_turn_nonneg _)
    rw [register, hnofree, ite_self]

end CqlClient.InFlight
