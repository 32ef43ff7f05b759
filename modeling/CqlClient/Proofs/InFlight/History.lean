import CqlClient.ClientError
import CqlClient.Proofs.InFlight

/-!
A table of waiters in use. Waiters are numbered in the order in which they get a stream, and a
history tells which stream each one got and how each one left the table. Whether anyone still
listens to a waiter is not seen by the table: one that nobody listens to keeps its stream.

At every moment the waiters that have left and those in the table are together all that ever got a
stream, each of them once. That alone says who is in the table, that nobody leaves it twice and that
the counts agree.
-/

open scoped List

namespace CqlClient.InFlight

/-- How a waiter leaves the table. -/
inductive Ending where
  | completed (frame : Frame)
  | cancelled
  | failed (reason : ClientError)
  deriving DecidableEq, Repr

/-- A waiter that has left the table. -/
structure Departure where
  waiter : Nat
  ending : Ending
  /-- Whether anyone still listened to the waiter. -/
  heard : Bool
  deriving DecidableEq, Repr

/-- A table of waiters with all that has been done to it. -/
structure History where
  table : InFlight Nat
  /-- The stream of each waiter, in the order of their numbers. -/
  granted : List Int16
  /-- The waiters that have left, in their order. -/
  departed : List Departure
  /-- The waiters that nobody listens to any more. -/
  abandoned : List Nat

inductive Operation where
  | register
  | complete (frame : Frame)
  | cancel (stream : Int16)
  | failAll (reason : ClientError)
  /-- The caller stops listening to a waiter. -/
  | abandon (waiter : Nat)
  deriving DecidableEq, Repr

namespace History

def empty : History := ⟨.empty, [], [], []⟩

/-- The next waiter asks for a stream. -/
def register (history : History) : Except ClientError Int16 × History :=
  match history.table.register history.granted.length with
  | none => (.error .streamsExhausted, history)
  | some (stream, table) =>
    (.ok stream, { history with table, granted := history.granted ++ [stream] })

/-- Some waiters leave, and this table is left. -/
def depart (history : History) (table : InFlight Nat) (waiters : List Nat) (ending : Ending) :
    History :=
  { history with
    table
    departed := history.departed ++ waiters.map fun waiter =>
      ⟨waiter, ending, waiter ∉ history.abandoned⟩ }

/-- A frame goes to the waiter on its stream, and whether there was one. -/
def complete (history : History) (frame : Frame) : Bool × History :=
  match history.table.take? frame.stream with
  | none => (false, history)
  | some (waiter, table) => (true, history.depart table [waiter] (.completed frame))

def cancel (history : History) (stream : Int16) : History :=
  match history.table.take? stream with
  | none => history
  | some (waiter, table) => history.depart table [waiter] .cancelled

/-- All waiters fail, and how many they are. -/
def failAll (history : History) (reason : ClientError) : Nat × History :=
  let (entries, table) := history.table.drain
  (entries.length, history.depart table (entries.map Prod.snd) (.failed reason))

def abandon (history : History) (waiter : Nat) : History :=
  { history with abandoned := waiter :: history.abandoned }

def perform (history : History) : Operation → History
  | .register => history.register.2
  | .complete frame => (history.complete frame).2
  | .cancel stream => history.cancel stream
  | .failAll reason => (history.failAll reason).2
  | .abandon waiter => history.abandon waiter

/-- What has happened after some operations on a new table. -/
def run (operations : List Operation) : History := operations.foldl perform empty

/-- The waiters that have left the table, as often as they have. -/
def leavers (history : History) : List Nat := history.departed.map Departure.waiter

/-- How many waiters were given a frame. -/
def completions (history : History) : Nat :=
  history.departed.countP fun departure => departure.ending matches .completed _

def cancellations (history : History) : Nat :=
  history.departed.countP fun departure => departure.ending matches .cancelled

def failures (history : History) : Nat :=
  history.departed.countP fun departure => departure.ending matches .failed _

/-! ## The books -/

/-- The waiters of a table are those that got a stream and have not left. -/
structure Sound (history : History) : Prop where
  nonneg : ∀ stream ∈ history.table.streams, 0 ≤ stream.toInt
  granted : ∀ entry ∈ history.table.entries, history.granted[entry.2]? = some entry.1
  account : (history.leavers ++ history.table.waiters).Perm (List.range history.granted.length)

theorem sound_empty : empty.Sound := by
  have hentries : empty.table.entries = [] := entries_eq_nil get?_empty
  refine ⟨?_, ?_, ?_⟩
  · intro stream hstream
    rw [streams, hentries] at hstream
    cases hstream
  · intro entry hentry
    rw [hentries] at hentry
    cases hentry
  · rw [waiters, hentries]
    exact .nil

variable {history next : History}

theorem Sound.register (h : history.Sound) : history.register.2.Sound := by
  rw [History.register]
  split
  · exact h
  next stream table hregister =>
  have hentries := entries_perm_of_register hregister
  obtain ⟨-, hstream, -⟩ := register_eq_some hregister
  refine ⟨?_, ?_, ?_⟩
  · intro other hother
    rcases List.mem_cons.mp ((hentries.map Prod.fst).mem_iff.mp hother) with rfl | hold
    · exact hstream
    · exact h.nonneg other hold
  · intro entry hentry
    rcases List.mem_cons.mp (hentries.mem_iff.mp hentry) with rfl | hold
    · exact List.getElem?_concat_length
    · have hsome := h.granted entry hold
      have hlt := (List.getElem?_eq_some_iff.mp hsome).choose
      rwa [List.getElem?_append_left hlt]
  · calc history.leavers ++ table.waiters
    _ ~ history.leavers ++ history.granted.length :: history.table.waiters :=
        (hentries.map Prod.snd).append_left history.leavers
    _ ~ history.granted.length :: (history.leavers ++ history.table.waiters) := List.perm_middle
    _ ~ history.granted.length :: List.range history.granted.length := h.account.cons _
    _ ~ List.range history.granted.length ++ [history.granted.length] :=
        (List.perm_append_singleton ..).symm
    _ = List.range (history.granted ++ [stream]).length := by
        rw [List.length_append, List.length_singleton, List.range_succ]

theorem Sound.depart (h : history.Sound) {table : InFlight Nat} (entries : List (Int16 × Nat))
    (hentries : history.table.entries.Perm (entries ++ table.entries)) (ending : Ending) :
    (history.depart table (entries.map Prod.snd) ending).Sound := by
  have hleavers : (history.depart table (entries.map Prod.snd) ending).leavers =
      history.leavers ++ entries.map Prod.snd := by
    simp [History.depart, leavers, Function.comp_def]
  refine ⟨?_, ?_, ?_⟩
  · intro stream hstream
    apply h.nonneg
    apply (hentries.map Prod.fst).mem_iff.mpr
    rw [List.map_append]
    exact List.mem_append_right _ hstream
  · intro entry hentry
    exact h.granted entry (hentries.mem_iff.mpr (List.mem_append_right _ hentry))
  · calc (history.depart table (entries.map Prod.snd) ending).leavers ++ table.waiters
    _ = history.leavers ++ (entries ++ table.entries).map Prod.snd := by
        rw [hleavers, List.append_assoc, List.map_append, waiters]
    _ ~ history.leavers ++ history.table.waiters :=
        (hentries.symm.map Prod.snd).append_left history.leavers
    _ ~ List.range history.granted.length := h.account

theorem Sound.departOne (h : history.Sound) {table : InFlight Nat} {stream : Int16} {waiter : Nat}
    (htake : history.table.take? stream = some (waiter, table)) (ending : Ending) :
    (history.depart table [waiter] ending).Sound :=
  h.depart [(stream, waiter)] (entries_perm_of_take? htake) ending

theorem Sound.complete (h : history.Sound) (frame : Frame) :
    (history.complete frame).2.Sound := by
  rw [History.complete]
  split
  · exact h
  · next htake => exact h.departOne htake _

theorem Sound.cancel (h : history.Sound) (stream : Int16) : (history.cancel stream).Sound := by
  rw [History.cancel]
  split
  · exact h
  · next htake => exact h.departOne htake _

theorem Sound.failAll (h : history.Sound) (reason : ClientError) :
    (history.failAll reason).2.Sound := by
  apply h.depart history.table.entries
  show history.table.entries ~ history.table.entries ++ history.table.drain.2.entries
  rw [entries_drain, List.append_nil]

theorem Sound.abandon (h : history.Sound) (waiter : Nat) : (history.abandon waiter).Sound :=
  ⟨h.nonneg, h.granted, h.account⟩

theorem Sound.perform (h : history.Sound) (operation : Operation) :
    (history.perform operation).Sound := by
  cases operation with
  | register => exact h.register
  | complete frame => exact h.complete frame
  | cancel stream => exact h.cancel stream
  | failAll reason => exact h.failAll reason
  | abandon waiter => exact h.abandon waiter

theorem sound_run (operations : List Operation) : (run operations).Sound := by
  have hfold (history : History) (h : history.Sound) :
      (operations.foldl History.perform history).Sound := by
    induction operations generalizing history with
    | nil => exact h
    | cons operation operations ih => exact ih _ (h.perform operation)
  exact hfold empty sound_empty

/-! ## What the books say -/

theorem Sound.nodup (h : history.Sound) : (history.leavers ++ history.table.waiters).Nodup :=
  h.account.nodup_iff.mpr List.nodup_range

/-- A waiter is in the table, on the stream that it got, until it leaves. -/
theorem Sound.get?_eq_some (h : history.Sound) {stream : Int16} {waiter : Nat} :
    history.table.get? stream = some waiter ↔
      history.granted[waiter]? = some stream ∧ waiter ∉ history.leavers := by
  constructor
  · intro hwaiter
    have hentry := mem_entries.mpr hwaiter
    refine ⟨h.granted _ hentry, ?_⟩
    intro hleft
    exact List.disjoint_of_nodup_append h.nodup hleft (List.mem_map_of_mem hentry)
  · rintro ⟨hgranted, hleft⟩
    have hlt : waiter < history.granted.length := (List.getElem?_eq_some_iff.mp hgranted).choose
    have hmem := h.account.mem_iff.mpr (List.mem_range.mpr hlt)
    obtain ⟨⟨other, _⟩, hentry, rfl⟩ :=
      List.mem_map.mp ((List.mem_append.mp hmem).resolve_left hleft)
    have hsame := (h.granted _ hentry).symm.trans hgranted
    cases hsame
    exact mem_entries.mp hentry

theorem length_departed (history : History) :
    history.departed.length = history.completions + history.cancellations + history.failures := by
  rw [completions, cancellations, failures]
  induction history.departed with
  | nil => rfl
  | cons departure departed ih =>
      obtain ⟨_, ending, _⟩ := departure
      cases ending <;> simp [ih] <;> omega

theorem Sound.length_granted (h : history.Sound) :
    history.granted.length = history.completions + history.cancellations + history.failures +
      history.table.size := by
  have hlength := h.account.length_eq
  rw [List.length_append, List.length_range, leavers, List.length_map, length_departed,
    length_waiters] at hlength
  exact hlength.symm

/-! ## What an operation does -/

/-- A registration adds one entry, for the next waiter, on a stream that had none. -/
theorem register_eq_ok {stream : Int16} (h : history.register = (.ok stream, next)) :
    stream ∉ history.table.streams ∧
      next = { history with table := next.table, granted := history.granted ++ [stream] } ∧
      ∀ other, next.table.get? other =
        if other = stream then some history.granted.length else history.table.get? other := by
  rw [register] at h
  split at h
  · cases h
  · next hregister =>
    cases h
    obtain ⟨hfree, -, htable⟩ := register_eq_some hregister
    refine ⟨?_, rfl, htable⟩
    rw [mem_streams, hfree]
    exact Bool.false_ne_true

theorem register_eq_error {err : ClientError} (h : history.register = (.error err, next)) :
    err = .streamsExhausted ∧ next = history := by
  rw [register] at h
  split at h
  · cases h
    exact ⟨rfl, rfl⟩
  · cases h

theorem complete_of_get?_eq_none {frame : Frame}
    (h : history.table.get? frame.stream = none) : history.complete frame = (false, history) := by
  rw [complete, take?_eq_none.mpr h]

theorem complete_of_get?_eq_some {frame : Frame} {waiter : Nat}
    (h : history.table.get? frame.stream = some waiter) :
    ∃ table, history.complete frame =
        (true, history.depart table [waiter] (.completed frame)) ∧
      ∀ other, table.get? other =
        if other = frame.stream then none else history.table.get? other := by
  cases htake : history.table.take? frame.stream with
  | none => cases h.symm.trans (take?_eq_none.mp htake)
  | some taken =>
      obtain ⟨found, table⟩ := taken
      obtain ⟨hfound, htable⟩ := take?_eq_some htake
      cases hfound.symm.trans h
      refine ⟨table, ?_, htable⟩
      rw [complete, htake]

theorem fst_complete (history : History) (frame : Frame) :
    (history.complete frame).1 = true ↔ frame.stream ∈ history.table.streams := by
  rw [mem_streams]
  cases h : history.table.get? frame.stream with
  | none => simp [complete_of_get?_eq_none h]
  | some waiter =>
      obtain ⟨table, hcomplete, -⟩ := complete_of_get?_eq_some h
      simp [hcomplete]

/-! ## At every moment -/

/-- What each operation will do, and what all of them have done. -/
structure Orderly (history : History) : Prop where
  nodup_streams : history.table.streams.Nodup
  range : ∀ stream ∈ history.table.streams,
    0 ≤ stream.toInt ∧ stream.toInt ≤ 32767 ∧ stream ≠ Frame.eventStream
  /-- A waiter is on its stream from its registration until it leaves. -/
  pending : ∀ stream waiter, history.table.get? stream = some waiter ↔
    history.granted[waiter]? = some stream ∧ waiter ∉ history.leavers
  registered : ∀ stream next, history.register = (.ok stream, next) →
    stream ∉ history.table.streams ∧
    next = { history with table := next.table, granted := history.granted ++ [stream] } ∧
    ∀ other, next.table.get? other =
      if other = stream then some history.granted.length else history.table.get? other
  exhausted : history.register.1 = .error .streamsExhausted ↔
    ∀ stream : Int16, 0 ≤ stream.toInt → stream ∈ history.table.streams
  refused : ∀ err next, history.register = (.error err, next) →
    err = .streamsExhausted ∧ next = history
  completed : ∀ frame, (history.complete frame).1 = true ↔ frame.stream ∈ history.table.streams
  /-- A waiter that nobody listens to takes its frame and leaves like any other. -/
  delivered : ∀ frame waiter, history.table.get? frame.stream = some waiter →
    ∃ table, (history.complete frame).2 =
        { history with
          table
          departed := history.departed ++
            [⟨waiter, .completed frame, waiter ∉ history.abandoned⟩] } ∧
      ∀ other, table.get? other =
        if other = frame.stream then none else history.table.get? other
  ignored : ∀ frame, (history.complete frame).1 = false → (history.complete frame).2 = history
  emptied : ∀ reason, (history.failAll reason).1 = history.table.size ∧
    (history.failAll reason).2.table.streams = []
  once : history.leavers.Nodup
  count : history.granted.length =
    history.completions + history.cancellations + history.failures + history.table.size

theorem Sound.exhausted (h : history.Sound) :
    history.register.1 = .error .streamsExhausted ↔
      ∀ stream : Int16, 0 ≤ stream.toInt → stream ∈ history.table.streams := by
  have hnone : history.table.register history.granted.length = none ↔
      ∀ stream : Int16, 0 ≤ stream.toInt → stream ∈ history.table.streams := by
    simp only [mem_streams]
    exact register_eq_none h.nonneg
  rw [← hnone, History.register]
  cases history.table.register history.granted.length <;> simp

theorem Sound.orderly (h : history.Sound) : history.Orderly where
  nodup_streams := InFlight.nodup_streams history.table
  range stream hstream := by
    have hlt : stream.toInt < 32768 := Int16.toInt_lt stream
    have hnonneg := h.nonneg stream hstream
    exact ⟨hnonneg, by omega, ne_eventStream hnonneg⟩
  pending _ _ := h.get?_eq_some
  registered _ _ := register_eq_ok
  exhausted := h.exhausted
  refused _ _ := register_eq_error
  completed := fst_complete history
  delivered frame waiter hwaiter := by
    obtain ⟨table, hcomplete, htable⟩ := complete_of_get?_eq_some hwaiter
    refine ⟨table, ?_, htable⟩
    rw [hcomplete]
    rfl
  ignored frame hfalse := by
    cases h : history.table.get? frame.stream with
    | none => rw [complete_of_get?_eq_none h]
    | some waiter =>
        obtain ⟨table, hcomplete, -⟩ := complete_of_get?_eq_some h
        rw [hcomplete] at hfalse
        cases hfalse
  emptied _ :=
    ⟨length_entries history.table, congrArg (List.map Prod.fst) (entries_drain history.table)⟩
  once := (List.nodup_append.mp h.nodup).1
  count := h.length_granted

theorem run_concat (operations : List Operation) (operation : Operation) :
    run (operations ++ [operation]) = (run operations).perform operation := List.foldl_concat ..

/-- Registrations alone fill the table, and then no more of them succeed. -/
theorem register_run_replicate {count : Nat} (hcount : streamCount ≤ count) :
    (run (.replicate count .register)).register.1 = .error .streamsExhausted := by
  have hfill (count : Nat) : count ≤ (run (.replicate count .register)).table.size ∨
      (run (.replicate count .register)).register.1 = .error .streamsExhausted := by
    induction count with
    | zero => exact .inl (Nat.zero_le _)
    | succ count ih =>
        rw [List.replicate_succ', run_concat, perform]
        generalize run (.replicate count .register) = history at ih ⊢
        cases hregister : history.table.register history.granted.length with
        | none =>
            have hsame : history.register = (.error .streamsExhausted, history) := by
              rw [register, hregister]
            right
            rw [hsame, hsame]
        | some taken =>
            obtain ⟨stream, table⟩ := taken
            have hnext : history.register = (.ok stream,
                { history with table, granted := history.granted ++ [stream] }) := by
              rw [register, hregister]
            rw [hnext] at ih ⊢
            left
            rw [size_of_register hregister]
            exact Nat.succ_le_succ (ih.resolve_right nofun)
  refine (hfill count).elim (fun hsize => ?_) id
  rw [register, InFlight.register, if_pos (Nat.le_trans hcount hsize)]

/-- Whatever is done to a table in whatever order, it stays in order. -/
theorem orderly_run (operations : List Operation) : (run operations).Orderly :=
  (sound_run operations).orderly

/-- All streams can be in use at once. -/
theorem mem_streams_run_replicate : ∀ stream : Int16, 0 ≤ stream.toInt →
    stream ∈ (run (.replicate streamCount .register)).table.streams :=
  (orderly_run _).exhausted.mp (register_run_replicate (Nat.le_refl _))

/-- A waiter that nobody listens to is the one that its frame goes to. -/
example : (run [.register, .register, .abandon 1, .complete (.response 1 .ready [])]).departed =
    [⟨1, .completed (.response 1 .ready []), false⟩] := by
  cbv

end History

end CqlClient.InFlight
