import Corm.Lib.KeyValue
import Corm.Open.Dsn
import Corm.Reading.Basic

/-!
# PostgreSQL: opening a connection

`pg_open` prints the parts of a connection string as keys and values, without quotes and escapes, and
`PQconnectdb` reads them.

* `pgConninfo`, `pgOpen`: the text for `PQconnectdb`, and the function;
* `DsnParts.options`, `pgOpen_body`: the keys and their values, and what is printed of them;
* `PgConnects`, `PgPairs`: `PQconnectdb` reads the parts and nothing else, and all of them;
* **`pg_dsn_iff`**: it does exactly when the database name, the user and the password need neither
  quotes nor escapes.
-/

namespace Corm

open KeyValue (Pair Plain parse lookup)

/-! ## The function -/

/-- `p += snprintf(p, sizeof(conninfo) - (p - conninfo), ...)` after the text up to `p`; undefined
when `p` leaves the array. -/
def printInfo (info piece : Text) : Option Text :=
  if (info ++ piece).length ≤ 1024 then some (info ++ piece) else none

/-- The same for an option, unless its value is empty. -/
def printOption (info key value : Text) : Option Text :=
  if value = [] then some info else printInfo info (key ++ value)

/-- The text that `pg_open` makes of its variables. -/
def pgConninfo (locals : DsnLocals) : Option Text := do
  let host ← text? locals.host
  let info ← printInfo [] ("host=".toList ++ host ++ " port=".toList ++ (toString locals.port).toList)
  let dbname ← text? locals.dbname
  let info ← printOption info " dbname=".toList dbname
  let user ← text? locals.user
  let info ← printOption info " user=".toList user
  let pass ← text? locals.pass
  let info ← printOption info " password=".toList pass
  some (snprintf 1024 info)

/-- `pg_open`: its result, by whether the server accepts the connection, and the text for
`PQconnectdb`. -/
def pgOpen (connectOk : Bool) (stack : Buffer Char 1024) (dsn : Text) : Option (Err × Text) := do
  let locals ← parseDsn [] "localhost".toList 5432 stack dsn
  let conninfo ← pgConninfo locals
  some (if connectOk then .ok else .backend, conninfo)

/-! ## What it is for -/

namespace DsnParts

variable (parts : DsnParts)

/-- The parts as options of a connection. -/
def options : List Pair :=
  [("host".toList, parts.host), ("port".toList, parts.digits), ("dbname".toList, parts.dbname),
    ("user".toList, parts.user), ("password".toList, parts.password)]

/-- The options that are printed. -/
def printed : List Pair := parts.options.filter fun p => p.2 ≠ []

end DsnParts

/-- `PQconnectdb` gets these parts and no other option; an option that is not given is empty. -/
def PgConnects (parts : DsnParts) (out : Option (Err × Text)) : Prop :=
  ∃ err conninfo pairs, out = some (err, conninfo) ∧ parse conninfo = some pairs ∧
    (∀ p ∈ pairs, p.1 ∈ parts.options.map Prod.fst) ∧
    ∀ p ∈ parts.options, (lookup pairs p.1).getD [] = p.2

/-- `PQconnectdb` gets exactly the options of these parts, the empty ones among them. -/
def PgPairs (parts : DsnParts) (out : Option (Err × Text)) : Prop :=
  ∃ err conninfo pairs, out = some (err, conninfo) ∧ parse conninfo = some pairs ∧
    ∀ p, p ∈ pairs ↔ p ∈ parts.options

/-- The parts of a connection string whose host needs no quotes. -/
structure PgParts extends DsnParts where
  host_plain : ∀ c ∈ host, Strtol.isSpace c = false ∧ c ≠ KeyValue.quote ∧ c ≠ '\\'

variable {parts : DsnParts} {p : Pair}

theorem dsnParse_postgres (body : Text) :
    dsnParse (some ("postgres://".toList ++ body)) = .ok (.postgres, body) := rfl

/-! ## The text -/

theorem digits_ne (parts : DsnParts) : parts.digits ≠ [] := Nat.toDigits_ne_nil

theorem keys_nodup (parts : DsnParts) : (parts.options.map Prod.fst).Nodup := by
  show ["host".toList, "port".toList, "dbname".toList, "user".toList, "password".toList].Nodup
  decide

theorem options_key (hp : p ∈ parts.options) : KeyValue.Key p.1 := by
  have hkey : p.1 ∈ parts.options.map Prod.fst := List.mem_map_of_mem hp
  have hall : (["host".toList, "port".toList, "dbname".toList, "user".toList,
      "password".toList].all fun k => !k.isEmpty && k.all fun c => !Strtol.isSpace c && c != '=') =
      true := by decide
  have hk := List.all_eq_true.mp hall p.1 hkey
  simp only [Bool.and_eq_true, Bool.not_eq_true', List.isEmpty_eq_false_iff, List.all_eq_true,
    bne_iff_ne] at hk
  exact ⟨hk.1, hk.2⟩

/-- The piece of an option that is printed unless it is empty. -/
def optionText (key value : Text) : Text := if value = [] then [] else key ++ value

theorem length_optionText_le (key value : Text) :
    (optionText key value).length ≤ key.length + value.length := by
  unfold optionText
  split_ifs <;> simp

theorem printOption_eq {info key value : Text}
    (h : info.length + (key.length + value.length) ≤ 1024) :
    printOption info key value = some (info ++ optionText key value) := by
  unfold printOption optionText
  split_ifs
  · rw [List.append_nil]
  · exact if_pos (by simpa using h)

theorem text_printed (parts : DsnParts) : KeyValue.text parts.printed =
    "host=".toList ++ parts.host ++ " port=".toList ++ parts.digits ++
      optionText " dbname=".toList parts.dbname ++ optionText " user=".toList parts.user ++
      optionText " password=".toList parts.password := by
  have hhost := parts.host_ne
  have huser := parts.user_ne
  have hport := digits_ne parts
  by_cases hdb : parts.dbname = [] <;> by_cases hpass : parts.password = [] <;>
    simp [KeyValue.text, DsnParts.printed, DsnParts.options, optionText, hhost, huser, hport, hdb,
      hpass, KeyValue.pairText, List.intercalate_cons_cons]

/-- **What `pg_open` makes of a connection string.** -/
theorem pgOpen_body (parts : DsnParts) (connectOk : Bool) (stack : Buffer Char 1024) :
    ∃ err, pgOpen connectOk stack parts.body = some (err, KeyValue.text parts.printed) := by
  obtain ⟨locals, hparse, huser, hpass, hhost, hport, hdbname⟩ :=
    parseDsn_body parts [] "localhost".toList 5432 stack
  have hname : text? locals.user = some parts.user := by
    have hlen := parts.user_length
    have hcounted := @text?_counted parts.user 256 [] parts.user_chars.2.2 (by simp) (by omega)
      (by decide)
    rw [huser, hcounted]
    simp
  have hdigits : (toString locals.port).toList = parts.digits := by
    rw [hport]
    exact toList_ofNat parts.port
  have hinfo : pgConninfo locals = some (KeyValue.text parts.printed) := by
    have haddr : ("host=".toList ++ parts.host ++ " port=".toList ++ parts.digits).length ≤ 215 := by
      have hlen := parts.host_length
      have hlenDigits := parts.length_digits
      simp
      omega
    have hlenDb := length_optionText_le " dbname=".toList parts.dbname
    have hlenUser := length_optionText_le " user=".toList parts.user
    have hlenPass := length_optionText_le " password=".toList parts.password
    have hdb := parts.dbname_length
    have husr := parts.user_length
    have hpw := parts.password_length
    have hkeys : " dbname=".toList.length = 8 ∧ " user=".toList.length = 6 ∧
      " password=".toList.length = 10 := by decide
    obtain ⟨hkeyDb, hkeyUser, hkeyPass⟩ := hkeys
    simp only [pgConninfo, hhost, hname, hpass, hdbname, hdigits, bind, Option.bind_some]
    rw [printInfo, List.nil_append, if_pos (by omega), Option.bind_some,
      printOption_eq (by omega), Option.bind_some,
      printOption_eq (by rw [List.length_append]; omega), Option.bind_some,
      printOption_eq (by rw [List.length_append, List.length_append]; omega), Option.bind_some,
      text_printed, snprintf, List.take_of_length_le]
    simp only [List.length_append] at haddr ⊢
    omega
  refine ⟨if connectOk then .ok else .backend, ?_⟩
  simp only [pgOpen, hparse, hinfo, bind, Option.bind_some]

/-! ## Reading the text -/

theorem printed_subset (parts : DsnParts) : parts.printed ⊆ parts.options :=
  List.filter_sublist.subset

theorem printed_ne (hp : p ∈ parts.printed) : p.2 ≠ [] := by
  simpa using (List.mem_filter.mp hp).2

theorem parse_printed (hplain : ∀ p ∈ parts.options, Plain p.2) :
    parse (KeyValue.text parts.printed) = some parts.printed :=
  KeyValue.parse_text (fun _ hp => options_key (printed_subset parts hp))
    (fun p hp => hplain p (printed_subset parts hp)) fun _ hp => printed_ne hp

/-- **What is printed is read back** exactly when every option is plain. -/
theorem pgConnects_iff (parts : DsnParts) (connectOk : Bool) (stack : Buffer Char 1024) :
    PgConnects parts (pgOpen connectOk stack parts.body) ↔ ∀ p ∈ parts.options, Plain p.2 := by
  obtain ⟨err, hopen⟩ := pgOpen_body parts connectOk stack
  have hsub : parts.printed ⊆ parts.options := printed_subset parts
  have hkeys : (parts.printed.map Prod.fst).Nodup :=
    (keys_nodup parts).sublist (List.filter_sublist.map Prod.fst)
  have hkey : ∀ p ∈ parts.printed, KeyValue.Key p.1 := fun p hp => options_key (hsub hp)
  constructor
  · rintro ⟨err', conninfo, pairs, hopen', hparse, -, hread⟩
    obtain ⟨-, rfl⟩ := Prod.mk.inj (Option.some.inj (hopen.symm.trans hopen'))
    have hfound : parts.printed ⊆ pairs := by
      intro p hp
      have hvalue := hread p (hsub hp)
      cases hl : lookup pairs p.1 with
      | none =>
        rw [hl] at hvalue
        exact absurd hvalue.symm (printed_ne hp)
      | some v =>
        rw [hl] at hvalue
        obtain rfl : v = p.2 := hvalue
        exact KeyValue.mem_of_lookup hl
    have hplain := (KeyValue.parse_text_iff hkey (fun _ hp => printed_ne hp) hkeys.of_map).mp
      ⟨pairs, hparse, hfound⟩
    intro p hp
    by_cases hnil : p.2 = []
    · rw [hnil]
      exact KeyValue.plain_nil
    · exact hplain p (List.mem_filter.mpr ⟨hp, by simpa using hnil⟩)
  · intro hplain
    refine ⟨err, _, _, hopen, parse_printed hplain, fun p hp => List.mem_map_of_mem (hsub hp),
      fun p hp => ?_⟩
    by_cases hnil : p.2 = []
    · cases hl : lookup parts.printed p.1 with
      | none => exact hnil.symm
      | some v =>
        have hmem := KeyValue.mem_of_lookup hl
        have heq := List.inj_on_of_nodup_map (keys_nodup parts) (hsub hmem) hp rfl
        exact congrArg Prod.snd heq
    · have hmem : p ∈ parts.printed := List.mem_filter.mpr ⟨hp, by simpa using hnil⟩
      rw [KeyValue.lookup_of_mem hkeys hmem]
      rfl

theorem PgPairs.connects {out : Option (Err × Text)} (h : PgPairs parts out) :
    PgConnects parts out := by
  obtain ⟨err, conninfo, pairs, hout, hparse, hmem⟩ := h
  refine ⟨err, conninfo, pairs, hout, hparse, fun p hp => List.mem_map_of_mem ((hmem p).mp hp), ?_⟩
  intro p hp
  cases hl : lookup pairs p.1 with
  | none =>
    have hnone := List.lookup_eq_none_iff.mp hl p (List.mem_reverse.mpr ((hmem p).mpr hp))
    simp at hnone
  | some v =>
    have hv := (hmem _).mp (KeyValue.mem_of_lookup hl)
    exact congrArg Prod.snd (List.inj_on_of_nodup_map (keys_nodup parts) hv hp rfl)

/-- **The empty options are the only difference**: `pg_open` does not print them. -/
theorem pgPairs_iff (parts : DsnParts) (connectOk : Bool) (stack : Buffer Char 1024) :
    PgPairs parts (pgOpen connectOk stack parts.body) ↔
      (∀ p ∈ parts.options, Plain p.2) ∧ ∀ p ∈ parts.options, p.2 ≠ [] := by
  obtain ⟨err, hopen⟩ := pgOpen_body parts connectOk stack
  constructor
  · intro h
    have hplain := (pgConnects_iff parts connectOk stack).mp h.connects
    refine ⟨hplain, fun p hp => ?_⟩
    obtain ⟨err', conninfo, pairs, hopen', hparse', hmem⟩ := h
    obtain ⟨-, rfl⟩ := Prod.mk.inj (Option.some.inj (hopen.symm.trans hopen'))
    obtain rfl := Option.some.inj ((parse_printed hplain).symm.trans hparse')
    exact printed_ne ((hmem p).mpr hp)
  · rintro ⟨hplain, hne⟩
    have hall : parts.printed = parts.options :=
      List.filter_eq_self.mpr fun p hp => by simpa using hne p hp
    refine ⟨err, _, _, hopen, parse_printed hplain, fun p => ?_⟩
    rw [hall]

theorem plain_digits (parts : DsnParts) : Plain parts.digits := by
  refine ⟨fun c hc => ⟨Strtol.isSpace_of_isDigit (parts.digits_chars c hc), ?_⟩, ?_⟩
  · rintro rfl
    exact parts.notMem_digits rfl hc
  · intro h
    exact parts.notMem_digits rfl (List.mem_of_head? h)

/-- **A PostgreSQL connection string cannot smuggle options** exactly when the database name, the
user and the password have no blanks and no backslashes in them, and no single quote in front. The
pairs are all five exactly when no part is empty besides. -/
theorem pg_dsn_iff (parts : PgParts) (connectOk : Bool) (stack : Buffer Char 1024) :
    dsnParse (some ("postgres://".toList ++ parts.body)) = .ok (.postgres, parts.body) ∧
    (PgConnects parts.toDsnParts (pgOpen connectOk stack parts.body) ↔
      Plain parts.dbname ∧ Plain parts.user ∧ Plain parts.password) ∧
    (PgPairs parts.toDsnParts (pgOpen connectOk stack parts.body) ↔
      (Plain parts.dbname ∧ Plain parts.user ∧ Plain parts.password) ∧
        parts.dbname ≠ [] ∧ parts.password ≠ []) := by
  have hhost : Plain parts.host := by
    refine ⟨fun c hc => ⟨(parts.host_plain c hc).1, (parts.host_plain c hc).2.2⟩, fun h => ?_⟩
    exact (parts.host_plain _ (List.mem_of_head? h)).2.1 rfl
  refine ⟨dsnParse_postgres parts.body, (pgConnects_iff parts.toDsnParts connectOk stack).trans ?_,
    (pgPairs_iff parts.toDsnParts connectOk stack).trans ?_⟩
  · simp [DsnParts.options, hhost, plain_digits]
  · simp [DsnParts.options, hhost, plain_digits, parts.host_ne, parts.user_ne, digits_ne]

theorem unquoted_pg :
    ∀ c ∈ "pg".toList, Strtol.isSpace c = false ∧ c ≠ KeyValue.quote ∧ c ≠ '\\' := by
  have hall : ("pg".toList.all fun c => !Strtol.isSpace c && c != KeyValue.quote && c != '\\') =
    true := by decide
  simpa [and_assoc] using hall

/-- A password with an option in it. -/
def evilParts : PgParts where
  user := "alice".toList
  password := "pw host=evil".toList
  host := "pg".toList
  port := 5433
  dbname := "orders".toList
  user_ne := by decide
  user_chars := by decide
  user_length := by decide
  password_chars := by decide
  password_length := by decide
  host_ne := by decide
  host_chars := by decide
  host_length := by decide
  port_pos := by decide
  port_le := by decide
  dbname_chars := by decide
  dbname_length := by decide
  host_plain := unquoted_pg

/-- **The password replaces the host.** -/
theorem password_replaces_host :
    ∃ pairs, pgOpen true ⟨List.replicate 1024 nul, List.length_replicate⟩ evilParts.body =
        some (.ok, "host=pg port=5433 dbname=orders user=alice password=pw host=evil".toList) ∧
      parse "host=pg port=5433 dbname=orders user=alice password=pw host=evil".toList = some pairs ∧
      lookup pairs "host".toList = some "evil".toList ∧
      ¬ PgConnects evilParts.toDsnParts
        (pgOpen true ⟨List.replicate 1024 nul, List.length_replicate⟩ evilParts.body) := by
  have hopen : pgOpen true ⟨List.replicate 1024 nul, List.length_replicate⟩ evilParts.body =
      some (.ok, "host=pg port=5433 dbname=orders user=alice password=pw host=evil".toList) := by
    decide +kernel
  have hparse : parse "host=pg port=5433 dbname=orders user=alice password=pw host=evil".toList =
      some [("host".toList, "pg".toList), ("port".toList, "5433".toList),
        ("dbname".toList, "orders".toList), ("user".toList, "alice".toList),
        ("password".toList, "pw".toList), ("host".toList, "evil".toList)] := by decide +kernel
  refine ⟨_, hopen, hparse, by decide, ?_⟩
  rintro ⟨err, conninfo, pairs, hopen', hparse', -, hread⟩
  obtain ⟨-, rfl⟩ := Prod.mk.inj (Option.some.inj (hopen.symm.trans hopen'))
  obtain rfl := Option.some.inj (hparse.symm.trans hparse')
  have hhost := hread ("host".toList, "pg".toList) List.mem_cons_self
  revert hhost
  decide

end Corm
