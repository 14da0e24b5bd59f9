import Corm.Open.Dsn

/-!
# MySQL: opening a connection

`mysql_open` copies the characters of the user over its default `root`, and no NUL after them.

* `MysqlConnect`, `MysqlOpenCall`: the arguments of `mysql_real_connect`, and the calls of the driver;
* `mysqlOpen`: the function;
* **`mysql_dsn_iff`**: it connects with the parts of a connection string exactly when the user has at
  least the four characters of the default.
-/

namespace Corm

/-- The arguments of `mysql_real_connect`. -/
structure MysqlConnect where
  host : Text
  user : Text
  passwd : Text
  db : Option Text
  port : ℕ
  deriving DecidableEq

/-- A driver call of `mysql_open`. -/
inductive MysqlOpenCall
  | init
  | connectTimeout (seconds : ℕ)
  | realConnect (args : MysqlConnect)
  | error
  | close
  deriving DecidableEq

/-- What the driver reads from the variables. -/
def mysqlConnectArgs (locals : DsnLocals) : Option MysqlConnect := do
  let host ← text? locals.host
  let user ← text? locals.user
  let passwd ← text? locals.pass
  let dbname ← text? locals.dbname
  some ⟨host, user, passwd, if dbname = [] then none else some dbname,
    (locals.port % 2 ^ 32).toNat⟩

/-- `mysql_open`: its result and its driver calls, by whether `mysql_init` and `mysql_real_connect`
succeed. -/
def mysqlOpen (initOk connectOk : Bool) (timeoutMs : ℤ) (stack : Buffer Char 1024) (dsn : Text) :
    Option (Err × List MysqlOpenCall) := do
  let locals ← parseDsn "root".toList "127.0.0.1".toList 3306 stack dsn
  if initOk then
    let args ← mysqlConnectArgs locals
    let timeout := if 0 < timeoutMs then (timeoutMs / 1000).toNat else 30
    let calls := [.init, .connectTimeout timeout, .realConnect args]
    some (if connectOk then (.ok, calls) else (.backend, calls ++ [MysqlOpenCall.error, .close]))
  else some (.nomem, [.init])

/-- `mysql_open` connects with these parts and no others; without a database name it selects none. -/
def MysqlConnects (parts : DsnParts) (out : Option (Err × List MysqlOpenCall)) : Prop :=
  ∃ err calls, out = some (err, calls) ∧ ∀ args, .realConnect args ∈ calls ↔
    args = ⟨parts.host, parts.user, parts.password,
      if parts.dbname = [] then none else some parts.dbname, parts.port⟩

variable {parts : DsnParts}

theorem dsnParse_mysql (body : Text) :
    dsnParse (some ("mysql://".toList ++ body)) = .ok (.mysql, body) := rfl

/-- **What `mysql_open` connects with**: its default supplies the characters that the user lacks. -/
theorem mysqlOpen_body (parts : DsnParts) (connectOk : Bool) (timeoutMs : ℤ)
    (stack : Buffer Char 1024) :
    ∃ err calls, mysqlOpen true connectOk timeoutMs stack parts.body = some (err, calls) ∧
      ∀ args, .realConnect args ∈ calls ↔
        args = ⟨parts.host, parts.user ++ "root".toList.drop parts.user.length, parts.password,
          if parts.dbname = [] then none else some parts.dbname, parts.port⟩ := by
  obtain ⟨locals, hparse, huser, hpass, hhost, hport, hdbname⟩ :=
    parseDsn_body parts "root".toList "127.0.0.1".toList 3306 stack
  have hname : text? locals.user = some (parts.user ++ "root".toList.drop parts.user.length) := by
    have hlen := parts.user_length
    rw [huser]
    exact text?_counted parts.user_chars.2.2 (by decide) (by omega) (by decide)
  have hportNat : ((parts.port : ℤ) % 2 ^ 32).toNat = parts.port := by
    have hle := parts.port_le
    omega
  have hargs : mysqlConnectArgs locals = some ⟨parts.host,
      parts.user ++ "root".toList.drop parts.user.length, parts.password,
      if parts.dbname = [] then none else some parts.dbname, parts.port⟩ := by
    simp only [mysqlConnectArgs, hhost, hname, hpass, hdbname, hport, hportNat, bind,
      Option.bind_some]
  simp only [mysqlOpen, hparse, hargs, bind, Option.bind_some, if_true]
  cases connectOk <;> exact ⟨_, _, rfl, fun args => by simp⟩

/-- **Connection strings are read back by `mysql_open`** exactly when the user has at least four
characters: a shorter one gets the last characters of `root`. -/
theorem mysql_dsn_iff (parts : DsnParts) (connectOk : Bool) (timeoutMs : ℤ)
    (stack : Buffer Char 1024) :
    dsnParse (some ("mysql://".toList ++ parts.body)) = .ok (.mysql, parts.body) ∧
    (MysqlConnects parts (mysqlOpen true connectOk timeoutMs stack parts.body) ↔
      4 ≤ parts.user.length) := by
  refine ⟨dsnParse_mysql parts.body, ?_⟩
  obtain ⟨err, calls, hopen, hcalls⟩ := mysqlOpen_body parts connectOk timeoutMs stack
  have hdrop : "root".toList.drop parts.user.length = [] ↔ 4 ≤ parts.user.length :=
    List.drop_eq_nil_iff
  rw [← hdrop]
  constructor
  · rintro ⟨err', calls', hopen', hcalls'⟩
    obtain ⟨-, rfl⟩ := Prod.mk.inj (Option.some.inj (hopen.symm.trans hopen'))
    have hargs := (hcalls' _).mp ((hcalls _).mpr rfl)
    exact List.append_right_eq_self.mp (congrArg MysqlConnect.user hargs)
  · intro hnil
    refine ⟨err, calls, hopen, ?_⟩
    rwa [hnil, List.append_nil] at hcalls

/-- A user with three characters. -/
def bobParts : DsnParts where
  user := "bob".toList
  password := "pw".toList
  host := "db".toList
  port := 3307
  dbname := "shop".toList
  user_ne := by decide
  user_chars := by decide
  user_length := by decide
  password_chars := by decide
  password_length := by decide
  host_ne := by decide
  host_chars := by decide
  host_length := by decide
  port_pos := by decide
  port_le := by decide
  dbname_chars := by decide
  dbname_length := by decide

/-- **`bob` connects as `bobt`.** -/
theorem bob_connects_as_bobt :
    mysqlOpen true true 0 ⟨List.replicate 1024 nul, List.length_replicate⟩ bobParts.body =
      some (.ok, [.init, .connectTimeout 30, .realConnect
        ⟨"db".toList, "bobt".toList, "pw".toList, some "shop".toList, 3307⟩]) ∧
    ¬ MysqlConnects bobParts
      (mysqlOpen true true 0 ⟨List.replicate 1024 nul, List.length_replicate⟩ bobParts.body) := by
  have hopen : mysqlOpen true true 0 ⟨List.replicate 1024 nul, List.length_replicate⟩
      bobParts.body = some (.ok, [.init, .connectTimeout 30, .realConnect
        ⟨"db".toList, "bobt".toList, "pw".toList, some "shop".toList, 3307⟩]) := by decide +kernel
  refine ⟨hopen, ?_⟩
  rintro ⟨err, calls, hopen', hcalls⟩
  obtain ⟨-, rfl⟩ := Prod.mk.inj (Option.some.inj (hopen.symm.trans hopen'))
  have hargs := (hcalls _).mp
    (List.mem_cons_of_mem _ (List.mem_cons_of_mem _ List.mem_cons_self))
  have huser : "bobt".toList = "bob".toList := congrArg MysqlConnect.user hargs
  revert huser
  decide

end Corm
