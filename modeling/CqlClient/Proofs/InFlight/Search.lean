import CqlClient.Proofs.InFlight

/-!
The search for a free stream. Nothing bounds it by itself: it goes from stream to stream until one
has no waiter. It ends within one round because a table that is not full leaves a stream free, and
the counter may wrap around on the way because a round divides the range of the counter.
-/

namespace CqlClient.InFlight

variable {α : Type}

/-- The stream so many places after another one, when they are walked upwards and the first one
follows the last. -/
def after (start ahead : Nat) : Int16 := Int16.ofNat ((start + ahead) % streamCount)

/-- The search without a bound, from a state of the counter: how many streams it looks at, which one
it finds, and where it leaves the counter. -/
inductive Search (pending : Std.TreeMap Int16 α) : UInt64 → Nat → Int16 → UInt64 → Prop where
  | free {tried : UInt64} (hfree : pending.contains (turn tried) = false) :
      Search pending tried 1 (turn tried) (tried + 1)
  | busy {tried later : UInt64} {looks : Nat} {stream : Int16}
      (hbusy : pending.contains (turn tried) = true)
      (hrest : Search pending (tried + 1) looks stream later) :
      Search pending tried (looks + 1) stream later

/-- The stream whose turn it is after so many others has no waiter, and each of those has one. -/
structure IsFirstFree (pending : Std.TreeMap Int16 α) (tried : UInt64) (ahead : Nat) : Prop where
  free : pending.contains (turn (tried + UInt64.ofNat ahead)) = false
  busy : ∀ earlier < ahead, pending.contains (turn (tried + UInt64.ofNat earlier)) = true

variable {pending : Std.TreeMap Int16 α} {tried later : UInt64} {stream : Int16}

/-- The counter may wrap around: the next streams are those after the one whose turn it is. -/
theorem turn_add (tried : UInt64) (ahead : Nat) :
    turn (tried + UInt64.ofNat ahead) = after (tried.toNat % streamCount) ahead := by
  have hround : (tried + UInt64.ofNat ahead).toNat % streamCount =
      (tried.toNat % streamCount + ahead) % streamCount := by
    rw [UInt64.toNat_add, UInt64.toNat_ofNat', show streamCount = 32768 from rfl]
    omega
  rw [turn, hround, after]

namespace IsFirstFree

variable {ahead other : Nat}

theorem zero_iff : IsFirstFree pending tried 0 ↔ pending.contains (turn tried) = false := by
  constructor
  · intro h
    have hfree := h.free
    rwa [add_ofNat_zero] at hfree
  · intro h
    refine ⟨?_, fun earlier hlt => absurd hlt (Nat.not_lt_zero earlier)⟩
    rwa [add_ofNat_zero]

theorem succ_iff : IsFirstFree pending tried (ahead + 1) ↔
    pending.contains (turn tried) = true ∧ IsFirstFree pending (tried + 1) ahead := by
  constructor
  · intro h
    have hfirst := h.busy 0 (Nat.zero_lt_succ ahead)
    rw [add_ofNat_zero] at hfirst
    refine ⟨hfirst, ?_, ?_⟩
    · rw [add_one_add_ofNat]
      exact h.free
    · intro earlier hlt
      rw [add_one_add_ofNat]
      exact h.busy (earlier + 1) (Nat.succ_lt_succ hlt)
  · rintro ⟨hfirst, hrest⟩
    refine ⟨?_, ?_⟩
    · rw [← add_one_add_ofNat]
      exact hrest.free
    · intro earlier hlt
      cases earlier with
      | zero => rwa [add_ofNat_zero]
      | succ earlier =>
          rw [← add_one_add_ofNat]
          exact hrest.busy earlier (Nat.lt_of_succ_lt_succ hlt)

theorem unique (h : IsFirstFree pending tried ahead) (h' : IsFirstFree pending tried other) :
    ahead = other := by
  apply Nat.le_antisymm
  · apply Nat.le_of_not_lt
    intro hlt
    exact absurd (h.busy other hlt) (by rw [h'.free]; exact Bool.false_ne_true)
  · apply Nat.le_of_not_lt
    intro hlt
    exact absurd (h'.busy ahead hlt) (by rw [h.free]; exact Bool.false_ne_true)

end IsFirstFree

/-- The search finds the first free stream, after a look at each of those in front of it. -/
theorem search_iff {looks : Nat} : Search pending tried looks stream later ↔
    ∃ ahead, IsFirstFree pending tried ahead ∧ looks = ahead + 1 ∧
      stream = turn (tried + UInt64.ofNat ahead) ∧ later = tried + UInt64.ofNat ahead + 1 := by
  constructor
  · intro h
    induction h with
    | @free tried hfree =>
        refine ⟨0, IsFirstFree.zero_iff.mpr hfree, rfl, ?_, ?_⟩
        · rw [add_ofNat_zero]
        · rw [add_ofNat_zero]
    | busy hbusy _ ih =>
        obtain ⟨ahead, hahead, hlooks, hstream, hlater⟩ := ih
        rw [add_one_add_ofNat] at hstream hlater
        refine ⟨ahead + 1, IsFirstFree.succ_iff.mpr ⟨hbusy, hahead⟩, ?_, hstream, hlater⟩
        rw [hlooks]
  · rintro ⟨ahead, hahead, rfl, rfl, rfl⟩
    induction ahead generalizing tried with
    | zero =>
        rw [add_ofNat_zero]
        exact .free (IsFirstFree.zero_iff.mp hahead)
    | succ ahead ih =>
        obtain ⟨hbusy, hrest⟩ := IsFirstFree.succ_iff.mp hahead
        have hsearch := ih hrest
        rw [add_one_add_ofNat] at hsearch
        exact .busy hbusy hsearch

/-- With a bound, the search finds what it finds without one, if it gets that far. -/
theorem findFree_eq_some_iff_search {tries : Nat} :
    findFree pending tries tried = some (stream, later) ↔
      ∃ looks ≤ tries, Search pending tried looks stream later := by
  constructor
  · intro h
    induction tries generalizing tried with
    | zero => cases h
    | succ tries ih =>
        rw [findFree] at h
        split at h
        · next hbusy =>
          obtain ⟨looks, hlooks, hsearch⟩ := ih h
          exact ⟨looks + 1, Nat.succ_le_succ hlooks, .busy hbusy hsearch⟩
        · next hfree =>
          cases h
          exact ⟨1, Nat.succ_le_succ (Nat.zero_le tries), .free (Bool.eq_false_iff.mpr hfree)⟩
  · rintro ⟨looks, hlooks, hsearch⟩
    induction hsearch generalizing tries with
    | free hfree =>
        obtain ⟨tries, rfl⟩ := Nat.exists_eq_add_of_le' hlooks
        rw [findFree, hfree]
        rfl
    | busy hbusy _ ih =>
        obtain ⟨tries, rfl⟩ := Nat.exists_eq_add_of_le' (Nat.le_trans (Nat.le_add_left 1 _) hlooks)
        rw [findFree, if_pos hbusy]
        exact ih (Nat.le_of_succ_le_succ hlooks)

/-- The streams that are not negative are so many, so a table with a waiter on each of them is full. -/
theorem streamCount_le_size {table : InFlight α}
    (hall : ∀ stream : Int16, 0 ≤ stream.toInt → (table.get? stream).isSome) :
    streamCount ≤ table.size := by
  have hplace {place : Nat} (hplace : place ∈ List.range streamCount) :
      (Int16.ofNat place).toInt = place := Int16.toInt_ofNat_of_lt (List.mem_range.mp hplace)
  have hsub : (List.range streamCount).map Int16.ofNat ⊆ table.streams := by
    intro stream hmem
    obtain ⟨place, hrange, rfl⟩ := List.mem_map.mp hmem
    apply mem_streams.mpr
    apply hall
    rw [hplace hrange]
    exact Int.natCast_nonneg place
  have hnodup : ((List.range streamCount).map Int16.ofNat).Nodup := by
    refine List.Nodup.map_on ?_ List.nodup_range
    intro first hfirst second hsecond heq
    apply Int.ofNat_inj.mp
    rw [← hplace hfirst, ← hplace hsecond, heq]
  calc streamCount = ((List.range streamCount).map Int16.ofNat).length := by
        rw [List.length_map, List.length_range]
    _ ≤ table.streams.length := (List.subperm_of_subset hnodup hsub).length_le
    _ = table.size := by rw [streams, List.length_map, length_entries]

/-- A table that is not full has a free stream within one round. -/
theorem exists_isFirstFree {table : InFlight α} (hroom : table.size < streamCount) :
    ∃ ahead < streamCount, IsFirstFree table.pending table.tried ahead := by
  have hround : ¬ ∀ ahead < streamCount,
      table.pending.contains (turn (table.tried + UInt64.ofNat ahead)) = true := by
    intro hall
    apply Nat.not_le.mpr hroom
    apply streamCount_le_size
    intro stream hstream
    obtain ⟨ahead, hahead, hturn⟩ := exists_turn_eq table.tried hstream
    rw [get?, ← Std.TreeMap.contains_eq_isSome_getElem?, ← hturn]
    exact hall ahead hahead
  cases hfound : findFree table.pending streamCount table.tried with
  | none => exact absurd (findFree_eq_none.mp hfound) hround
  | some found =>
      obtain ⟨looks, hlooks, hsearch⟩ := findFree_eq_some_iff_search.mp hfound
      obtain ⟨ahead, hahead, rfl, -⟩ := search_iff.mp hsearch
      exact ⟨ahead, hlooks, hahead⟩

/-- In a table that is not full, the unbounded search ends after a look at no more streams than there
are, wherever the counter stands. It finds the first free one of those that follow upwards and in a
cycle from the stream whose turn it is; a new waiter gets that stream, and the counter is left just
past it. -/
theorem register_first_free {table : InFlight α} (hroom : table.size < streamCount) (waiter : α) :
    ∃ ahead < streamCount, ∃ stream, ∃ later : UInt64,
      stream = after (table.tried.toNat % streamCount) ahead ∧
      table.get? stream = none ∧
      (∀ earlier < ahead, (table.get? (after (table.tried.toNat % streamCount) earlier)).isSome) ∧
      (∀ looks found left, Search table.pending table.tried looks found left ↔
        looks = ahead + 1 ∧ found = stream ∧ left = later) ∧
      later = table.tried + UInt64.ofNat ahead + 1 ∧
      turn later = after stream.toInt.toNat 1 ∧
      table.register waiter = some (stream, ⟨later, table.pending.insert stream waiter⟩) := by
  obtain ⟨ahead, hlt, hfirst⟩ := exists_isFirstFree hroom
  have hends {looks : Nat} {found : Int16} {left : UInt64} :
      Search table.pending table.tried looks found left ↔
        looks = ahead + 1 ∧ found = turn (table.tried + UInt64.ofNat ahead) ∧
          left = table.tried + UInt64.ofNat ahead + 1 := by
    rw [search_iff]
    constructor
    · rintro ⟨other, hother, hparts⟩
      rwa [hfirst.unique hother]
    · intro hparts
      exact ⟨ahead, hfirst, hparts⟩
  have hfound : findFree table.pending streamCount table.tried =
      some (turn (table.tried + UInt64.ofNat ahead), table.tried + UInt64.ofNat ahead + 1) :=
    findFree_eq_some_iff_search.mpr ⟨ahead + 1, hlt, hends.mpr ⟨rfl, rfl, rfl⟩⟩
  have hnext : turn (table.tried + UInt64.ofNat ahead + 1) =
      after (turn (table.tried + UInt64.ofNat ahead)).toInt.toNat 1 := by
    rw [toInt_turn]
    exact turn_add _ 1
  refine ⟨ahead, hlt, turn (table.tried + UInt64.ofNat ahead), _, turn_add _ _, ?_, ?_,
    fun _ _ _ => hends, rfl, hnext, ?_⟩
  · have hfree := hfirst.free
    rw [Std.TreeMap.contains_eq_isSome_getElem?] at hfree
    exact Option.isNone_iff_eq_none.mp (Option.isSome_eq_false_iff.mp hfree)
  · intro earlier hearlier
    rw [← turn_add, get?, ← Std.TreeMap.contains_eq_isSome_getElem?]
    exact hfirst.busy earlier hearlier
  · rw [register, if_neg (Nat.not_le.mpr hroom), hfound]

/-- With the counter before its last value and waiters on the last stream and the first, the search
looks at three streams and passes the end of the counter on the way. -/
theorem register_first_free_of_wrapping_counter :
    let table : InFlight Unit :=
      ⟨18446744073709551615, ((∅ : Std.TreeMap Int16 Unit).insert 32767 ()).insert 0 ()⟩
    table.size < streamCount ∧
    ∃ ahead < streamCount, ∃ stream, ∃ later : UInt64,
      stream = after (table.tried.toNat % streamCount) ahead ∧
      table.get? stream = none ∧
      (∀ earlier < ahead, (table.get? (after (table.tried.toNat % streamCount) earlier)).isSome) ∧
      (∀ looks found left, Search table.pending table.tried looks found left ↔
        looks = ahead + 1 ∧ found = stream ∧ left = later) ∧
      later = table.tried + UInt64.ofNat ahead + 1 ∧
      turn later = after stream.toInt.toNat 1 ∧
      table.register () = some (stream, ⟨later, table.pending.insert stream ()⟩) := by
  intro table
  have hroom : table.size < streamCount := by decide
  exact ⟨hroom, register_first_free hroom ()⟩

/-- The stream found there is the second one, and the counter has started over. -/
example : (register (⟨18446744073709551615,
    ((∅ : Std.TreeMap Int16 Unit).insert 32767 ()).insert 0 ()⟩ : InFlight Unit) ()).map
      (fun taken => (taken.1, taken.2.tried)) = some (1, 2) := by
  cbv

end CqlClient.InFlight
