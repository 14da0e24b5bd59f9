import Corm.Exec
import Mathlib.Algebra.Order.Field.Rat
import Mathlib.Algebra.Order.Ring.Abs
import Mathlib.Tactic.Linarith
import Mathlib.Tactic.NormNum
import Mathlib.Tactic.Ring

/-!
# How long a statement took

`corm_exec`, `corm_exec_params` and `corm_raw`: one call of the backend between two readings of the
monotonic clock, and a call of the logger.

* `elapsedUs`: the expression of the three functions, in unsigned 64-bit arithmetic;
* `Connection`, `exec`, `execParams`, `raw`: the functions, with the two readings given;
* `elapsedUs_of_le`, `elapsedUs_of_lt`: the value where the nanoseconds do not borrow, and where they
  do;
* **`elapsed_right_iff`**: the logged time is right exactly when they do not.
-/

namespace Corm

/-! ## The clock -/

/-- `struct timespec`. -/
structure Timespec where
  tvSec : ℤ
  tvNsec : ℤ

namespace Timespec

/-- The nanoseconds are below one second. -/
def Normalised (t : Timespec) : Prop := 0 ≤ t.tvNsec ∧ t.tvNsec < 1000000000

/-- The time in nanoseconds. -/
def nanos (t : Timespec) : ℤ := t.tvSec * 1000000000 + t.tvNsec

end Timespec

/-- The conversion to `uint64_t`. -/
def toU64 (n : ℤ) : ℕ := (n % 2 ^ 64).toNat

/-- `(uint64_t)(end.tv_sec - start.tv_sec) * 1000000 +
(uint64_t)(end.tv_nsec - start.tv_nsec) / 1000`. -/
def elapsedUs (start stop : Timespec) : ℕ :=
  (toU64 (stop.tvSec - start.tvSec) * 1000000 % 2 ^ 64 +
    toU64 (stop.tvNsec - start.tvNsec) / 1000) % 2 ^ 64

/-! ## The three functions -/

/-- `corm_log_level_t`. -/
inductive LogLevel
  | debug
  | info
  | warn
  | error
  deriving DecidableEq

/-- The arguments of a call of the logger. -/
structure LogEntry where
  level : LogLevel
  sql : Text
  elapsedUs : ℕ
  deriving DecidableEq

/-- The part of `struct corm` that a statement changes, the state of the database, and the calls of
the logger so far; `logger` tells whether one is set. -/
structure Connection (σ : Type) where
  state : σ
  lastErr : Err
  errSql : Text
  logger : Bool
  log : List LogEntry

/-- `corm_set_err_sql`; `err_sql` holds 1023 characters. -/
def setErrSql (sql : Text) : Text :=
  if sql.length < 1024 then sql else sql.take 1020 ++ "...".toList

variable {σ ρ : Type} (b : Backend σ ρ) (start stop : Timespec)

/-- What the three functions do after the call of the backend, which returned `err`. -/
def finish (sql : Text) (err : Err) (state : σ) (db : Connection σ) : Connection σ where
  state := state
  lastErr := err
  errSql := if err = .ok then db.errSql else setErrSql sql
  logger := db.logger
  log := if db.logger then
      db.log ++ [⟨if err = .ok then .info else .error, sql, elapsedUs start stop⟩]
    else db.log

/-- `corm_exec`. -/
def exec (sql : Text) (db : Connection σ) : Err × Connection σ :=
  let (err, s) := b.exec db.state sql []
  (err, finish start stop sql err s db)

/-- `corm_exec_params`. -/
def execParams (sql : Text) (params : List Value) (db : Connection σ) : Err × Connection σ :=
  let (err, s) := b.exec db.state sql params
  (err, finish start stop sql err s db)

/-- `corm_raw`; the second component is `*out`. -/
def raw (sql : Text) (db : Connection σ) : Err × Option ρ × Connection σ :=
  let (err, out, s) := b.query db.state sql []
  (err, out, finish start stop sql err s db)

/-- A call of one of the three functions. -/
inductive SqlCall
  | exec (sql : Text)
  | execParams (sql : Text) (params : List Value)
  | raw (sql : Text)

/-- The connection after a call. -/
def SqlCall.run (db : Connection σ) : SqlCall → Connection σ
  | .exec sql => (Corm.exec b start stop sql db).2
  | .execParams sql params => (Corm.execParams b start stop sql params db).2
  | .raw sql => (Corm.raw b start stop sql db).2.2

/-- The statement of a call. -/
def SqlCall.sql : SqlCall → Text
  | .exec sql => sql
  | .execParams sql _ => sql
  | .raw sql => sql

theorem run_finish (call : SqlCall) (db : Connection σ) :
    ∃ err s, call.run b start stop db = finish start stop call.sql err s db := by
  cases call with
  | exec sql => exact ⟨_, _, rfl⟩
  | execParams sql params => exact ⟨_, _, rfl⟩
  | raw sql => exact ⟨_, _, rfl⟩

/-! ## The value -/

variable {start stop}

theorem toU64_of_nonneg {n : ℤ} (h : 0 ≤ n) (hn : n < 2 ^ 64) : (toU64 n : ℤ) = n := by
  rw [toU64, Int.emod_eq_of_lt h hn, Int.toNat_of_nonneg h]

theorem toU64_of_neg {n : ℤ} (h : n < 0) (hn : -2 ^ 64 ≤ n) : (toU64 n : ℤ) = n + 2 ^ 64 := by
  unfold toU64
  omega

/-- Without a borrow the value is exact, but for the nanoseconds below a microsecond. -/
theorem elapsedUs_of_le (hs : start.Normalised) (he : stop.Normalised)
    (hsec : 0 ≤ stop.tvSec - start.tvSec) (hmax : stop.tvSec - start.tvSec < 2 ^ 40)
    (hle : start.tvNsec ≤ stop.tvNsec) :
    (elapsedUs start stop : ℤ) =
      (stop.tvSec - start.tvSec) * 1000000 + (stop.tvNsec - start.tvNsec) / 1000 := by
  have h1 := toU64_of_nonneg hsec (by omega)
  have h2 := toU64_of_nonneg (n := stop.tvNsec - start.tvNsec) (by omega)
    (by have := hs.1; have := he.2; omega)
  have := hs.1
  have := he.2
  unfold elapsedUs
  omega

/-- With a borrow the cast of the negative difference adds `2 ^ 64` nanoseconds. -/
theorem elapsedUs_of_lt (hs : start.Normalised) (he : stop.Normalised)
    (hsec : 0 ≤ stop.tvSec - start.tvSec) (hmax : stop.tvSec - start.tvSec < 2 ^ 40)
    (hlt : stop.tvNsec < start.tvNsec) :
    (elapsedUs start stop : ℤ) =
      (stop.tvSec - start.tvSec) * 1000000 + (stop.tvNsec - start.tvNsec + 2 ^ 64) / 1000 := by
  have h1 := toU64_of_nonneg hsec (by omega)
  have h2 := toU64_of_neg (n := stop.tvNsec - start.tvNsec) (by omega)
    (by have := hs.2; have := he.1; omega)
  have := hs.2
  have := he.1
  unfold elapsedUs
  omega

/-- A number of microseconds is off by less than 2. -/
def Right (start stop : Timespec) (us : ℕ) : Prop :=
  |(us : ℚ) - ((stop.nanos - start.nanos : ℤ) : ℚ) / 1000| < 2

theorem right_iff (us : ℕ) :
    Right start stop us ↔ |1000 * (us : ℤ) - (stop.nanos - start.nanos)| < 2000 := by
  have hcast : (1000 * ((us : ℚ) - ((stop.nanos - start.nanos : ℤ) : ℚ) / 1000)) =
      ((1000 * (us : ℤ) - (stop.nanos - start.nanos) : ℤ) : ℚ) := by
    push_cast
    ring
  have habs : |((1000 * (us : ℤ) - (stop.nanos - start.nanos) : ℤ) : ℚ)| =
      1000 * |(us : ℚ) - ((stop.nanos - start.nanos : ℤ) : ℚ) / 1000| := by
    rw [← hcast, abs_mul, abs_of_pos (by norm_num)]
  have hint : |1000 * (us : ℤ) - (stop.nanos - start.nanos)| < 2000 ↔
      |((1000 * (us : ℤ) - (stop.nanos - start.nanos) : ℤ) : ℚ)| < 2000 := by
    exact_mod_cast Iff.rfl
  rw [hint, habs, Right]
  constructor
  · intro h
    linarith
  · intro h
    linarith

theorem elapsedUs_right_iff (hs : start.Normalised) (he : stop.Normalised)
    (hle : start.nanos ≤ stop.nanos) (hmax : stop.tvSec - start.tvSec < 2 ^ 40) :
    Right start stop (elapsedUs start stop) ↔ start.tvNsec ≤ stop.tvNsec := by
  have := hs.1
  have := hs.2
  have := he.1
  have := he.2
  have hsec : 0 ≤ stop.tvSec - start.tvSec := by
    unfold Timespec.nanos at hle
    omega
  rw [right_iff, abs_lt]
  unfold Timespec.nanos
  rcases le_or_gt start.tvNsec stop.tvNsec with hn | hn
  · rw [elapsedUs_of_le hs he hsec hmax hn]
    omega
  · rw [elapsedUs_of_lt hs he hsec hmax hn]
    omega

/-- **The logged time is right exactly when the nanoseconds do not borrow from the seconds.** -/
theorem elapsed_right_iff (call : SqlCall) (db : Connection σ) (hlog : db.logger = true)
    (hs : start.Normalised) (he : stop.Normalised) (hle : start.nanos ≤ stop.nanos)
    (hmax : stop.tvSec - start.tvSec < 2 ^ 40) :
    ∃ entry, (call.run b start stop db).log = db.log ++ [entry] ∧ entry.sql = call.sql ∧
      (Right start stop entry.elapsedUs ↔ start.tvNsec ≤ stop.tvNsec) := by
  obtain ⟨err, s, hrun⟩ := run_finish b start stop call db
  refine ⟨⟨if err = .ok then .info else .error, call.sql, elapsedUs start stop⟩, ?_, rfl,
    elapsedUs_right_iff hs he hle hmax⟩
  rw [hrun, finish, if_pos hlog]

/-! ## Across a second boundary -/

/-- A database on which every statement succeeds. -/
def idleDb : Backend Unit Unit where
  type := .sqlite
  exec s _ _ := (.ok, s)
  query s _ _ := (.ok, none, s)
  begin_ s := (.ok, s)
  commit s := (.ok, s)
  rollback s := (.ok, s)
  lastInsertId _ := 0
  rowsAffected _ := 0

/-- A connection with a logger. -/
def logged : Connection Unit := ⟨(), .ok, [], true, []⟩

/-- **Two milliseconds across a second boundary** are logged as more than 584 years. -/
theorem elapsed_wrong_boundary :
    ((SqlCall.exec "SELECT 1".toList).run idleDb ⟨7, 999000000⟩ ⟨8, 1000000⟩ logged).log =
        [⟨.info, "SELECT 1".toList, 18446744073711551⟩] ∧
      ¬ Right ⟨7, 999000000⟩ ⟨8, 1000000⟩ 18446744073711551 := by
  refine ⟨by decide, ?_⟩
  rw [right_iff]
  decide

theorem elapsed_right_iff_boundary :
    ∃ entry, ((SqlCall.raw "SELECT 1".toList).run idleDb ⟨7, 999000000⟩ ⟨8, 1000000⟩ logged).log =
        logged.log ++ [entry] ∧ entry.sql = "SELECT 1".toList ∧
      (Right ⟨7, 999000000⟩ ⟨8, 1000000⟩ entry.elapsedUs ↔ (999000000 : ℤ) ≤ 1000000) :=
  elapsed_right_iff idleDb (.raw "SELECT 1".toList) logged rfl ⟨by decide, by decide⟩
    ⟨by decide, by decide⟩ (by decide) (by decide)

end Corm
