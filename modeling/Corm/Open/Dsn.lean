import Corm.Lib.Cells
import Corm.Lib.Strtol
import Corm.Model
import Mathlib.Data.List.TakeWhile

/-!
# Connection strings

`corm_dsn_parse`, and the parser that `mysql_open` and `pg_open` share up to their defaults. It works
on arrays, of which it may read and write the cells only.

* `strchr`, `strncpyTo`, `atoi`: the functions of the C library it uses;
* `parseLogin`, `parseHost`, `parseDsn`: the parser, up to `@`, after it, and in full;
* `DsnParts`, `DsnParts.body`: the parts of a connection string, and the string;
* **`parseDsn_body`**: what the parser makes of it; only the user keeps something of its default.
-/

namespace Corm

/-! ## Strings in arrays -/

/-- The string at the start of some cells; undefined when it is not terminated. -/
def text? (cells : List Char) : Option Text := if nul ∈ cells then some (cstr cells) else none

/-- `strchr`: the index of the first `c`, if there is one. -/
def strchr (cells : List Char) (c : Char) : Option (Option ℕ) :=
  (text? cells).map fun s => s.idxOf? c

/-- `strncpy(dst, src, n)`: the cells of `dst` after it. -/
def strncpyTo (dst src : List Char) (n : ℕ) : Option (List Char) :=
  if n ≤ src.length ∨ nul ∈ src then Cells.write dst 0 (strncpy (cstr (src.take n)) n) else none

/-- `atoi`. -/
def atoi (cells : List Char) : Option ℤ := (text? cells).bind Strtol.atoi

/-- `char a[size] = s`. -/
def charArray (size : ℕ) (s : Text) : List Char := strncpy s size

/-! ## The parser -/

/-- `corm_dsn_parse`: the backend, and what it is to open. -/
def dsnParse (dsn : Option Text) : Except Err (BackendType × Text) :=
  match dsn with
  | none => .error .null
  | some dsn =>
    if "sqlite3://".toList.isPrefixOf dsn then .ok (.sqlite, dsn.drop 10)
    else if "sqlite://".toList.isPrefixOf dsn then .ok (.sqlite, dsn.drop 9)
    else if "mysql://".toList.isPrefixOf dsn then .ok (.mysql, dsn.drop 8)
    else if "postgres://".toList.isPrefixOf dsn then .ok (.postgres, dsn.drop 11)
    else if "postgresql://".toList.isPrefixOf dsn then .ok (.postgres, dsn.drop 13)
    else .ok (.sqlite, dsn)

/-- What the parser leaves in its variables. -/
structure DsnLocals where
  user : List Char
  pass : List Char
  host : List Char
  port : ℤ
  dbname : List Char

/-- The part up to `@`: `user`, `pass`, and the cells from the rest of `buf` on. -/
def parseLogin (user pass buf : List Char) : Option (List Char × List Char × List Char) := do
  match ← strchr buf '@' with
  | some i =>
    let buf ← Cells.write buf i [nul]
    match ← strchr buf ':' with
    | some colon =>
      let user ← strncpyTo user buf colon
      let pass ← strncpyTo pass (buf.drop (colon + 1)) 255
      some (user, pass, buf.drop (i + 1))
    | none =>
      let user ← strncpyTo user buf 255
      some (user, pass, buf.drop (i + 1))
  | none => some (user, pass, buf)

/-- The part from `p` on: `host`, `port` and `dbname`. -/
def parseHost (host : List Char) (port : ℤ) (dbname p : List Char) :
    Option (List Char × ℤ × List Char) := do
  match ← strchr p '/' with
  | some hostlen =>
    let dbname ← strncpyTo dbname (p.drop (hostlen + 1)) 255
    let host ← if 0 < hostlen ∧ hostlen < 256 then
        (strncpyTo host p hostlen).bind fun host => Cells.write host hostlen [nul]
      else some host
    match ← strchr host ':' with
    | some hcolon =>
      let host ← Cells.write host hcolon [nul]
      let port ← atoi (host.drop (hcolon + 1))
      some (host, port, dbname)
    | none => some (host, port, dbname)
  | none =>
    match ← strchr p ':' with
    | some hostlen =>
      let host ← strncpyTo host p hostlen
      let host ← Cells.write host hostlen [nul]
      let port ← atoi (p.drop (hostlen + 1))
      some (host, port, dbname)
    | none =>
      let host ← strncpyTo host p 255
      some (host, port, dbname)

/-- The parser, with its defaults for `user`, `host` and `port`; `stack` is what `buf` starts as. -/
def parseDsn (user host : Text) (port : ℤ) (stack : Buffer Char 1024) (dsn : Text) :
    Option DsnLocals := do
  let buf ← strncpyTo stack.1 (dsn ++ [nul]) 1023
  let (user, pass, p) ← parseLogin (charArray 256 user) (charArray 256 []) buf
  let (host, port, dbname) ← parseHost (charArray 256 host) port (charArray 256 []) p
  some ⟨user, pass, host, port, dbname⟩

/-! ## Connection strings and their parts -/

/-- The parts of a connection string. -/
structure DsnParts where
  user : Text
  password : Text
  host : Text
  port : ℕ
  dbname : Text
  user_ne : user ≠ []
  user_chars : '@' ∉ user ∧ ':' ∉ user ∧ nul ∉ user
  user_length : user.length < 200
  password_chars : '@' ∉ password ∧ nul ∉ password
  password_length : password.length < 200
  host_ne : host ≠ []
  host_chars : '@' ∉ host ∧ ':' ∉ host ∧ '/' ∉ host ∧ nul ∉ host
  host_length : host.length < 200
  port_pos : 0 < port
  port_le : port ≤ 65535
  dbname_chars : '@' ∉ dbname ∧ nul ∉ dbname
  dbname_length : dbname.length < 200

/-- The digits of the port. -/
def DsnParts.digits (parts : DsnParts) : Text := Nat.toDigits 10 parts.port

/-- `user:password@host:port/dbname`. -/
def DsnParts.body (parts : DsnParts) : Text :=
  parts.user ++ ':' :: parts.password ++ '@' :: parts.host ++ ':' :: parts.digits ++ '/' :: parts.dbname

variable {s t rest dst : List Char} {c : Char} {n : ℕ}

/-! ## The functions of the C library -/

theorem text?_append (h : nul ∉ s) (rest : List Char) : text? (s ++ nul :: rest) = some s := by
  have hall : ∀ c ∈ s, (c != nul) = true := by
    rintro c hc
    have hne : c ≠ nul := ne_of_mem_of_not_mem hc h
    simpa using hne
  have hmem : nul ∈ s ++ nul :: rest := by simp
  rw [text?, if_pos hmem, cstr, List.takeWhile_append_of_pos hall,
    List.takeWhile_cons_of_neg (by simp), List.append_nil]

theorem idxOf?_append (h : c ∉ s) (t : List Char) : (s ++ c :: t).idxOf? c = some s.length := by
  induction s with
  | nil => simp [List.idxOf?_cons]
  | cons d s ih =>
    obtain ⟨hne, hs⟩ := not_or.mp (fun h' => h (List.mem_cons.mpr h'))
    have hd : (d == c) = false := by simpa using Ne.symm hne
    rw [List.cons_append, List.idxOf?_cons, ih hs, hd]
    rfl

theorem strchr_append (hs : nul ∉ s) (hc : c ∉ s) (hne : c ≠ nul) (ht : nul ∉ t)
    (rest : List Char) : strchr (s ++ c :: (t ++ nul :: rest)) c = some (some s.length) := by
  have hnul : nul ∉ s ++ c :: t := by simp [hs, ht, Ne.symm hne]
  have hcells : s ++ c :: (t ++ nul :: rest) = (s ++ c :: t) ++ nul :: rest := by simp
  rw [strchr, hcells, text?_append hnul, Option.map_some, idxOf?_append hc]

theorem write_length (cells : List Char) (s : List Char) (h : s.length ≤ cells.length) :
    Cells.write cells 0 s = some (s ++ cells.drop s.length) := by
  rw [Cells.write_eq (by omega)]
  simp

theorem strncpyTo_text (h : nul ∉ s) (hn : s.length < n) (hdst : n ≤ dst.length)
    (rest : List Char) :
    ∃ after, strncpyTo dst (s ++ nul :: rest) n = some (s ++ nul :: after) ∧
      (s ++ nul :: after).length = dst.length := by
  have hsrc : n ≤ (s ++ nul :: rest).length ∨ nul ∈ s ++ nul :: rest := Or.inr (by simp)
  obtain ⟨k, hk⟩ : ∃ k, n - s.length = k + 1 := ⟨n - s.length - 1, by omega⟩
  have hcstr : cstr ((s ++ nul :: rest).take n) = s := by
    rw [List.take_append, List.take_of_length_le (Nat.le_of_lt hn), hk, List.take_succ_cons]
    have htext := text?_append h (rest.take k)
    rw [text?, if_pos (by simp)] at htext
    exact Option.some.inj htext
  have hcopy : strncpy s n = s ++ nul :: List.replicate k nul := by
    rw [strncpy, List.take_of_length_le (Nat.le_of_lt hn), hk, List.replicate_succ]
  have hlen : (strncpy s n).length = n := strncpy_length s n
  refine ⟨List.replicate k nul ++ dst.drop n, ?_, ?_⟩
  · rw [strncpyTo, if_pos hsrc, hcstr, write_length _ _ (hlen.trans_le hdst), hlen, hcopy]
    simp
  · simp only [List.length_append, List.length_cons, List.length_replicate, List.length_drop]
    omega

/-- **Copying a counted prefix** puts no NUL after it. -/
theorem strncpyTo_counted (h : nul ∉ s) (hdst : s.length ≤ dst.length) (rest : List Char) :
    strncpyTo dst (s ++ rest) s.length = some (s ++ dst.drop s.length) := by
  have hcstr : cstr s = s := by
    rw [cstr, List.takeWhile_eq_self_iff]
    intro c hc
    have hne : c ≠ nul := ne_of_mem_of_not_mem hc h
    simpa using hne
  have hcopy : strncpy s s.length = s := by simp [strncpy]
  rw [strncpyTo, if_pos (Or.inl (by simp)), List.take_left, hcstr, hcopy, write_length _ _ hdst]

theorem text?_counted {size : ℕ} {d : Text} (hs : nul ∉ s) (hd : nul ∉ d) (hslen : s.length < size)
    (hdlen : d.length < size) :
    text? (s ++ (charArray size d).drop s.length) = some (s ++ d.drop s.length) := by
  have hrest : ∃ rest, (charArray size d).drop s.length = d.drop s.length ++ nul :: rest := by
    obtain ⟨k, hk⟩ : ∃ k, size - d.length - (s.length - d.length) = k + 1 :=
      ⟨size - d.length - (s.length - d.length) - 1, by omega⟩
    refine ⟨List.replicate k nul, ?_⟩
    rw [charArray, strncpy, List.take_of_length_le (Nat.le_of_lt hdlen), List.drop_append,
      List.drop_replicate, hk, List.replicate_succ]
  obtain ⟨rest, hrest⟩ := hrest
  have hnul : nul ∉ s ++ d.drop s.length := by
    simpa [hs] using fun h => hd (List.mem_of_mem_drop h)
  rw [hrest, ← List.append_assoc, text?_append hnul]

theorem length_charArray (size : ℕ) (s : Text) : (charArray size s).length = size :=
  strncpy_length s size

theorem atoi_digits {port : ℕ} (h : port ≤ 65535) (rest : List Char) :
    atoi (Nat.toDigits 10 port ++ nul :: rest) = some (port : ℤ) := by
  have hnul : nul ∉ Nat.toDigits 10 port := fun hm => by
    have hd := Nat.isDigit_of_mem_toDigits (by decide) (by decide) hm
    cases hd
  have hvalue : Strtol.value (Nat.toDigits 10 port) = port := by
    have h := @Strtol.value_toDigits [] port rfl
    rwa [List.append_nil] at h
  rw [atoi, text?_append hnul, Option.bind_some, Strtol.atoi, hvalue,
    if_pos ⟨by omega, by omega⟩]

/-! ## Reading the parts back -/

namespace DsnParts

variable (parts : DsnParts)

theorem digits_chars : ∀ c ∈ parts.digits, c.isDigit = true := fun _ hc =>
  Nat.isDigit_of_mem_toDigits (by decide) (by decide) hc

theorem length_digits : parts.digits.length ≤ 5 :=
  (Nat.length_toDigits_le_iff (by decide) (by decide)).mpr (Nat.lt_of_le_of_lt parts.port_le (by decide))

theorem notMem_digits {c : Char} (h : c.isDigit = false) : c ∉ parts.digits := fun hc => by
  rw [parts.digits_chars c hc] at h
  cases h

end DsnParts

/-- The part up to `@`: the user keeps what it had after the characters of the name. -/
theorem parseLogin_parts (parts : DsnParts) {user pass : List Char} (huser : user.length = 256)
    (hpass : pass.length = 256) {tail : List Char} (htail : nul ∉ tail) (rest : List Char) :
    ∃ after, parseLogin user pass
        (parts.user ++ ':' :: parts.password ++ '@' :: (tail ++ nul :: rest)) =
      some (parts.user ++ user.drop parts.user.length, parts.password ++ nul :: after,
        tail ++ nul :: rest) := by
  obtain ⟨huat, hucolon, hunul⟩ := parts.user_chars
  obtain ⟨hpat, hpnul⟩ := parts.password_chars
  have hlogin : nul ∉ parts.user ++ ':' :: parts.password := by
    simp [hunul, hpnul, show nul ≠ ':' by decide]
  have hloginAt : '@' ∉ parts.user ++ ':' :: parts.password := by simp [huat, hpat]
  have hat := strchr_append hlogin hloginAt (by decide) htail rest
  have hcut := Cells.write_one (parts.user ++ ':' :: parts.password) (tail ++ nul :: rest) '@' nul
  have hcells : parts.user ++ ':' :: parts.password ++ nul :: (tail ++ nul :: rest) =
      parts.user ++ ':' :: (parts.password ++ nul :: (tail ++ nul :: rest)) := by simp
  have hcolon := strchr_append hunul hucolon (by decide) hpnul (tail ++ nul :: rest)
  have hname := @strncpyTo_counted parts.user user hunul
    (by have := parts.user_length; omega) (':' :: (parts.password ++ nul :: (tail ++ nul :: rest)))
  obtain ⟨after, hword, -⟩ := @strncpyTo_text parts.password pass 255 hpnul
    (by have := parts.password_length; omega) (by omega) (tail ++ nul :: rest)
  refine ⟨after, ?_⟩
  have hdrop : (parts.user ++ ':' :: (parts.password ++ nul :: (tail ++ nul :: rest))).drop
      (parts.user.length + 1) = parts.password ++ nul :: (tail ++ nul :: rest) := by
    rw [← List.drop_drop, List.drop_left]
    rfl
  have hdropAt : (parts.user ++ ':' :: (parts.password ++ nul :: (tail ++ nul :: rest))).drop
      ((parts.user ++ ':' :: parts.password).length + 1) = tail ++ nul :: rest := by
    rw [← hcells, ← List.drop_drop, List.drop_left]
    rfl
  simp only [parseLogin, hat, hcut, hcells, hcolon, hname, hdrop, hword, hdropAt, bind,
    Option.bind_some]

theorem parseHost_parts (parts : DsnParts) {host dbname : List Char} (hhost : host.length = 256)
    (hdbname : dbname.length = 256) (port : ℤ) (rest : List Char) :
    ∃ after after', parseHost host port dbname
        (parts.host ++ ':' :: parts.digits ++ '/' :: (parts.dbname ++ nul :: rest)) =
      some (parts.host ++ nul :: after, (parts.port : ℤ), parts.dbname ++ nul :: after') := by
  obtain ⟨-, hhcolon, hhslash, hhnul⟩ := parts.host_chars
  obtain ⟨-, hdnul⟩ := parts.dbname_chars
  have hdigits : nul ∉ parts.digits := parts.notMem_digits rfl
  have haddr : nul ∉ parts.host ++ ':' :: parts.digits := by
    simp [hhnul, hdigits, show nul ≠ ':' by decide]
  have hslashDigits : '/' ∉ parts.digits := parts.notMem_digits rfl
  have haddrSlash : '/' ∉ parts.host ++ ':' :: parts.digits := by simp [hhslash, hslashDigits]
  have hslash := strchr_append haddr haddrSlash (by decide) hdnul rest
  obtain ⟨after', hdb, -⟩ := @strncpyTo_text parts.dbname dbname 255 hdnul
    (by have := parts.dbname_length; omega) (by omega) rest
  have hlen : (parts.host ++ ':' :: parts.digits).length < 256 := by
    have := parts.host_length
    have := parts.length_digits
    simp only [List.length_append, List.length_cons]
    omega
  have hpos : 0 < (parts.host ++ ':' :: parts.digits).length :=
    List.length_pos_of_mem (List.mem_append_right _ List.mem_cons_self)
  have hcopy := @strncpyTo_counted (parts.host ++ ':' :: parts.digits) host haddr (by omega)
    ('/' :: (parts.dbname ++ nul :: rest))
  obtain ⟨old, after, hold⟩ : ∃ old after,
      host.drop (parts.host ++ ':' :: parts.digits).length = old :: after :=
    ⟨_, _, List.drop_eq_getElem_cons (by omega)⟩
  have hend := Cells.write_one (parts.host ++ ':' :: parts.digits) after old nul
  have hcells : parts.host ++ ':' :: parts.digits ++ nul :: after =
      parts.host ++ ':' :: (parts.digits ++ nul :: after) := by simp
  have hcolon := strchr_append hhnul hhcolon (by decide) hdigits after
  have hcut := Cells.write_one parts.host (parts.digits ++ nul :: after) ':' nul
  have hdropSlash : (parts.host ++ ':' :: parts.digits ++ '/' :: (parts.dbname ++ nul :: rest)).drop
      ((parts.host ++ ':' :: parts.digits).length + 1) = parts.dbname ++ nul :: rest := by
    rw [← List.drop_drop, List.drop_left]
    rfl
  have hdropColon : (parts.host ++ nul :: (parts.digits ++ nul :: after)).drop
      (parts.host.length + 1) = parts.digits ++ nul :: after := by
    rw [← List.drop_drop, List.drop_left]
    rfl
  have hport : atoi (parts.digits ++ nul :: after) = some (parts.port : ℤ) :=
    atoi_digits parts.port_le after
  refine ⟨parts.digits ++ nul :: after, after', ?_⟩
  simp only [parseHost, hslash, hdropSlash, hdb, hlen, hpos, and_self, if_true, hcopy, hold, hend,
    hcells, hcolon, hcut, hdropColon, hport, bind, Option.bind_some]

/-- **What the parser makes of a connection string**: all parts but the user are what they were, and
the user has the rest of its default behind it. -/
theorem parseDsn_body (parts : DsnParts) (user host : Text) (port : ℤ) (stack : Buffer Char 1024) :
    ∃ locals, parseDsn user host port stack parts.body = some locals ∧
      locals.user = parts.user ++ (charArray 256 user).drop parts.user.length ∧
      text? locals.pass = some parts.password ∧ text? locals.host = some parts.host ∧
      locals.port = parts.port ∧ text? locals.dbname = some parts.dbname := by
  obtain ⟨huat, hucolon, hunul⟩ := parts.user_chars
  obtain ⟨hpat, hpnul⟩ := parts.password_chars
  obtain ⟨-, -, -, hhnul⟩ := parts.host_chars
  obtain ⟨-, hdnul⟩ := parts.dbname_chars
  have hdigits : nul ∉ parts.digits := parts.notMem_digits rfl
  have hnul : nul ∉ parts.body := by
    simp [DsnParts.body, hunul, hpnul, hhnul, hdigits, hdnul, show nul ≠ ':' by decide,
      show nul ≠ '@' by decide, show nul ≠ '/' by decide]
  have hlen : parts.body.length < 1023 := by
    have := parts.user_length
    have := parts.password_length
    have := parts.host_length
    have := parts.length_digits
    have := parts.dbname_length
    simp only [DsnParts.body, List.length_append, List.length_cons]
    omega
  obtain ⟨rest, hbuf, -⟩ := @strncpyTo_text parts.body stack.1 1023 hnul hlen
    (by rw [stack.2]; decide) []
  have htail : nul ∉ parts.host ++ ':' :: parts.digits ++ '/' :: parts.dbname := by
    simp [hhnul, hdigits, hdnul, show nul ≠ ':' by decide, show nul ≠ '/' by decide]
  obtain ⟨pass, hlogin⟩ := parseLogin_parts parts (length_charArray 256 user)
    (length_charArray 256 []) htail rest
  obtain ⟨after, db, hhost⟩ := parseHost_parts parts (length_charArray 256 host)
    (length_charArray 256 []) port rest
  have hcells : parts.body ++ nul :: rest = parts.user ++ ':' :: parts.password ++
      '@' :: (parts.host ++ ':' :: parts.digits ++ '/' :: parts.dbname ++ nul :: rest) := by
    simp [DsnParts.body]
  have htailCells : parts.host ++ ':' :: parts.digits ++ '/' :: parts.dbname ++ nul :: rest =
      parts.host ++ ':' :: parts.digits ++ '/' :: (parts.dbname ++ nul :: rest) := by simp
  refine ⟨⟨_, _, _, _, _⟩, ?_, rfl, text?_append hpnul pass, text?_append hhnul after, rfl,
    text?_append hdnul db⟩
  rw [htailCells] at hlogin hcells
  rw [parseDsn, hbuf]
  simp only [hcells, hlogin, hhost, bind, Option.bind_some]

end Corm
