import CqlClient.CommandLine.Loading
import CqlClient.Proofs.WireType.Grammar

/-!
Settings on their way from a file and the options to their use. Those of a file are checked before
they are used, and so are the standard ones. Options take the place of the address and the keyspace
after that check, and nobody looks at the result: it is fit for use if and only if the options are.
-/

namespace CqlClient

theorem Text.trimChars_eq_nil_iff {cs : List Char} :
    trimChars cs = [] ↔ ∀ c ∈ cs, isBlank c = true := by
  constructor
  · intro hempty c hc
    obtain ⟨⟨before, after⟩, hcs⟩ := exists_around_trimChars cs
    rw [hempty, Margins.around, List.append_nil] at hcs
    rw [hcs] at hc
    rcases List.mem_append.mp hc with hbefore | hafter
    · exact before.isBlank c hbefore
    · exact after.isBlank c hafter
  · intro hall
    rw [trimChars, trimLeft, List.dropWhile_eq_nil_iff.mpr hall]
    rfl

/-- The name of a host, of which something must be seen. -/
def IsHost (host : String) : Prop := ∃ c ∈ host.toList, Text.isBlank c = false

/-- The name of a keyspace, or no name at all. -/
def IsKeyspace (keyspace : String) : Prop := keyspace = "" ∨ isIdentifier keyspace = true

namespace Settings

/-- Settings that are fit for use. -/
structure Valid (s : Settings) : Prop where
  host : IsHost s.endpoint.host
  port : s.endpoint.port ≠ 0
  keyspace : IsKeyspace s.keyspace
  version : s.connection.cqlVersion ≠ ""
  connectTimeout : 0 < s.connection.connectTimeoutMillis
  requestTimeout : ∀ limit, s.connection.requestTimeoutMillis = some limit → 0 < limit
  protocolErrors : 1 ≤ s.connection.maxProtocolErrors
  attempts : 1 ≤ s.retry.maxAttempts
  backoff : s.retry.baseBackoffMillis ≤ s.retry.maxBackoffMillis

theorem isHost_iff {host : String} :
    IsHost host ↔ ¬ (Text.trimChars host.toList).isEmpty = true := by
  rw [IsHost, List.isEmpty_iff, Text.trimChars_eq_nil_iff]
  simp

theorem isKeyspace_iff {keyspace : String} :
    IsKeyspace keyspace ↔ ¬ (keyspace ≠ "" ∧ (!isIdentifier keyspace) = true) := by
  rw [IsKeyspace, Decidable.not_and_iff_not_or_not, Decidable.not_not, Bool.not_eq_true',
    Bool.not_eq_false]

theorem ite_some_eq_none {α : Type} {p : Prop} [Decidable p] {a : α} {rest : Option α} :
    (if p then some a else rest) = none ↔ ¬ p ∧ rest = none := by
  split
  · next hp => exact ⟨nofun, fun h => absurd hp h.1⟩
  · next hp => exact ⟨fun h => ⟨hp, h⟩, And.right⟩

/-- The check finds no fault exactly in settings that are fit for use. -/
theorem fault?_eq_none_iff {s : Settings} : s.fault? = none ↔ s.Valid := by
  have hlimit : s.connection.requestTimeoutMillis ≠ some 0 ↔
      ∀ limit, s.connection.requestTimeoutMillis = some limit → 0 < limit := by
    constructor
    · intro hne limit hlimit
      apply Nat.pos_of_ne_zero
      rintro rfl
      exact hne hlimit
    · intro hpos hzero
      exact absurd (hpos 0 hzero) (Nat.lt_irrefl 0)
  rw [fault?]
  simp only [ite_some_eq_none, ← isHost_iff, ← isKeyspace_iff, and_true]
  constructor
  · rintro ⟨host, port, keyspace, version, connect, request, errors, attempts, backoff⟩
    exact {
      host, port, keyspace, version
      connectTimeout := Nat.pos_of_ne_zero connect
      requestTimeout := hlimit.mp request
      protocolErrors := Nat.pos_of_ne_zero errors
      attempts := Nat.pos_of_ne_zero attempts
      backoff := Nat.le_of_not_lt backoff }
  · intro h
    exact ⟨h.host, h.port, h.keyspace, h.version, Nat.ne_of_gt h.connectTimeout,
      hlimit.mpr h.requestTimeout, Nat.ne_of_gt h.protocolErrors, Nat.ne_of_gt h.attempts,
      Nat.not_lt.mpr h.backoff⟩

theorem valid_of_ofToml {text : String} {s : Settings} (h : ofToml text = .ok s) : s.Valid := by
  rw [ofToml] at h
  split at h
  · cases h
  · rw [check] at h
    split at h
    · cases h
    · next hfault =>
      cases h
      exact fault?_eq_none_iff.mp hfault

end Settings

namespace CommandLine.Arguments

/-- Options that may stand in the place of what a file says. -/
structure Sound (args : Arguments) : Prop where
  host : ∀ host, args.host = some host → IsHost host
  port : ∀ port, args.port = some port → port ≠ 0
  keyspace : ∀ keyspace, args.keyspace = some keyspace → IsKeyspace keyspace

/-- A value that is good in the absence of another is good if and only if the other one is. -/
theorem getD_iff {α : Type} (good : α → Prop) (given : Option α) {standard : α}
    (h : good standard) : good (given.getD standard) ↔ ∀ a, given = some a → good a := by
  cases given with
  | none => exact iff_of_true h nofun
  | some a => simp

theorem override_valid_iff {args : Arguments} {base : Settings} (hbase : base.Valid) :
    (args.override base).Valid ↔ args.Sound := by
  have hhost := getD_iff IsHost args.host hbase.host
  have hport := getD_iff (· ≠ 0) args.port hbase.port
  have hkeyspace := getD_iff IsKeyspace args.keyspace hbase.keyspace
  constructor
  · intro h
    exact ⟨hhost.mp h.host, hport.mp h.port, hkeyspace.mp h.keyspace⟩
  · intro h
    exact { hbase with
      host := hhost.mpr h.host
      port := hport.mpr h.port
      keyspace := hkeyspace.mpr h.keyspace }

/-- The text that the settings are read from: that of the file named, or the standard one. -/
def source? (args : Arguments) (content : String → Option String) : Option String :=
  args.config.elim (some standardFile) content

section

variable {args : Arguments} {content : String → Option String} {text : String} {settings : Settings}

theorem load_of_source (h : args.source? content = some text) :
    args.load content = ((Settings.ofToml text).mapError .badSettings).map args.override := by
  rw [source?] at h
  rw [load]
  cases hconfig : args.config with
  | none =>
      rw [hconfig] at h
      have htext : standardFile = text := Option.some.inj h
      simp only [pure_bind, htext]
      cases Settings.ofToml text <;> rfl
  | some path =>
      rw [hconfig, Option.elim_some] at h
      simp only [h, Option.elim_some, ok_bind]
      cases Settings.ofToml text <;> rfl

theorem load_ne_ok_of_no_source (h : args.source? content = none) :
    args.load content ≠ .ok settings := by
  rw [source?] at h
  rw [load]
  cases hconfig : args.config with
  | none =>
      rw [hconfig] at h
      cases h
  | some path =>
      rw [hconfig, Option.elim_some] at h
      simp only [h, Option.elim_none, error_bind]
      intro herror
      cases herror

theorem load_eq_ok_iff :
    args.load content = .ok settings ↔
      ∃ text base, args.source? content = some text ∧ Settings.ofToml text = .ok base ∧
        args.override base = settings := by
  cases hsource : args.source? content with
  | none => exact iff_of_false (load_ne_ok_of_no_source hsource) (by simp)
  | some text =>
      rw [load_of_source hsource, map_eq_ok]
      cases hbase : Settings.ofToml text <;> simp [Except.mapError, hbase]

end

/-- Settings are only ever read from a text that gives settings fit for use. What the options make of
them is fit for use if and only if every option that is given may stand in the place of what the text
says. -/
theorem load_valid_iff {args : Arguments} {content : String → Option String} {settings : Settings}
    (h : args.load content = .ok settings) :
    (∃ text base, args.source? content = some text ∧ Settings.ofToml text = .ok base ∧
      base.Valid ∧ settings = args.override base) ∧
    (settings.Valid ↔ args.Sound) := by
  obtain ⟨text, base, hsource, hbase, rfl⟩ := load_eq_ok_iff.mp h
  have hvalid := Settings.valid_of_ofToml hbase
  exact ⟨⟨text, base, hsource, hbase, hvalid, rfl⟩, override_valid_iff hvalid⟩

/-- A blank keyspace in place of that of a file, and another host: both may stand there. -/
theorem load_valid_iff_of_replaced_keyspace :
    let args : Arguments :=
      { config := some "client.toml", host := some "10.0.0.7", keyspace := some "" }
    let content : String → Option String := fun _ =>
      some "keyspace = \"events\"\n[endpoint]\nhost = \"db\"\nport = 19042\n"
    let settings : Settings :=
      ⟨⟨"10.0.0.7", 19042⟩, "", .standard, .standard, .standard⟩
    args.load content = .ok settings ∧
    (∃ text base, args.source? content = some text ∧ Settings.ofToml text = .ok base ∧
      base.Valid ∧ settings = args.override base) ∧
    (settings.Valid ↔ args.Sound) := by
  intro args content settings
  have hload : args.load content = .ok settings := toOption_eq_some.mp (by decide +kernel)
  exact ⟨hload, load_valid_iff hload⟩

/-- The port zero, which a file may not name, is taken from an option. -/
theorem load_accepts_zero_port : ∃ args settings,
    Arguments.read ["--port=0", "SELECT 1"] = .ok args ∧
    args.load (fun _ => none) = .ok settings ∧ settings.endpoint.port = 0 ∧ ¬ settings.Valid := by
  refine ⟨{ port := some 0, query := some "SELECT 1" },
    ⟨⟨"127.0.0.1", 0⟩, "", .standard, .standard, .standard⟩, rfl,
    toOption_eq_some.mp (by decide +kernel), rfl, ?_⟩
  intro hvalid
  exact hvalid.port rfl

end CommandLine.Arguments

end CqlClient
