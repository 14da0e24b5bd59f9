import Corm.Dialect.Holes

/-!
# The placeholders of an UPDATE

The builder scans the SET text and the WHERE text one after the other, and starts the second scan at
the number of `?` that it counts in the first text.

* `numberedAt`, `numberedSpan`: what a character of a text becomes when the `i`-th `?` is written
  `$i`, said by its position;
* `numberedSpan_eq`: the scan of a piece of a text writes that piece;
* `afterDollars`, `holeNumbers`: the numbers after the `$` of a text, and those that are read there;
* **`update_numbered`**: SET and WHERE are numbered as one text.
-/

namespace Corm

/-- What the character at position `j` of a text becomes: a `?` becomes `$i`, where `i` is the number
of `?` up to it, and any other character stays. -/
def numberedAt (t : Text) (j : ℕ) : Text :=
  match t[j]? with
  | some c => if c = '?' then '$' :: Nat.toDigits 10 ((t.take (j + 1)).count '?') else [c]
  | none => []

/-- What `len` characters of a text become, from position `a` on. -/
def numberedSpan (t : Text) (a len : ℕ) : Text := (List.range' a len).flatMap (numberedAt t)

/-- The texts after each `$` of a text. -/
def afterDollars : Text → List Text
  | [] => []
  | c :: w => if c = '$' then w :: afterDollars w else afterDollars w

/-- The numbers of the holes. -/
def holeNumbers (chunks : List (Chunk ℕ)) : List ℕ :=
  chunks.filterMap fun
    | .char _ => none
    | .hole k => some k

variable {u v w : Text} {c : Char} {i n r : ℕ}

/-! ## One scan -/

theorem numberedAt_middle (u : Text) (c : Char) (v : Text) :
    numberedAt (u ++ c :: v) u.length =
      if c = '?' then '$' :: Nat.toDigits 10 ((u ++ [c]).count '?') else [c] := by
  have hget : (u ++ c :: v)[u.length]? = some c := by simp
  have htake : (u ++ c :: v).take (u.length + 1) = u ++ [c] := by
    rw [List.take_append, List.take_of_length_le (Nat.le_succ _)]
    simp
  rw [numberedAt, hget, htake]

/-- **The scan of a piece of a text**, started at the number of `?` before it. -/
theorem numberedSpan_eq (u w v : Text) : numberedSpan (u ++ w ++ v) u.length w.length =
    appendWithPlaceholders .postgres (u.count '?') w := by
  induction w generalizing u with
  | nil => rfl
  | cons c w ih =>
    have hrest := ih (u ++ [c])
    rw [List.length_append, List.length_singleton, List.count_append, List.append_assoc u,
      List.singleton_append] at hrest
    rw [numberedSpan, List.length_cons, List.range'_succ, List.flatMap_cons]
    rw [show List.flatMap (numberedAt (u ++ c :: w ++ v)) (List.range' (u.length + 1) w.length) =
      _ from hrest, List.append_assoc, List.cons_append, numberedAt_middle, appendWithPlaceholders,
      List.count_append]
    by_cases hc : c = '?'
    · subst hc
      rw [if_pos rfl, if_pos rfl]
      rfl
    · rw [if_neg hc, if_neg hc, List.count_singleton, beq_eq_false_iff_ne.mpr hc]
      rfl

/-! ## The numbers after `$` -/

theorem afterDollars_append (a b : Text) :
    afterDollars (a ++ b) = (afterDollars a).map (· ++ b) ++ afterDollars b := by
  induction a with
  | nil => rfl
  | cons c a ih =>
    rw [List.cons_append, afterDollars, afterDollars, ih]
    split_ifs <;> rfl

theorem afterDollars_plain (h : '$' ∉ w) : afterDollars w = [] := by
  induction w with
  | nil => rfl
  | cons c w ih =>
    rw [List.mem_cons, not_or] at h
    rw [afterDollars, if_neg (Ne.symm h.1), ih h.2]

/-- Each text starts with the digits of its number. -/
abbrev Numbers (ks : List ℕ) (rests : List Text) : Prop :=
  List.Forall₂ (fun k rest => Nat.toDigits 10 k <+: rest) ks rests

theorem Numbers.append {ks : List ℕ} {rests : List Text} (h : Numbers ks rests) (b : Text) :
    Numbers ks (rests.map (· ++ b)) := by
  rw [Numbers, List.forall₂_map_right_iff]
  exact h.imp fun k rest hp => hp.trans (List.prefix_append rest b)

theorem numbers_placeholder (i : ℕ) (rest : Text) :
    afterDollars (placeholderStr .postgres i ++ rest) =
      (Nat.toDigits 10 (i + 1) ++ rest) :: afterDollars rest := by
  have hd : '$' ∉ Nat.toDigits 10 (i + 1) := by
    intro h
    have hdigit := isDigit_of_mem_number h
    revert hdigit
    decide
  rw [placeholderStr, List.cons_append, afterDollars, if_pos rfl, afterDollars_append,
    afterDollars_plain hd]
  rfl

/-- **After the `k`-th `$` that a scan writes stands `k`.** -/
theorem numbers_scan (h : '$' ∉ w) (i : ℕ) : Numbers (List.range' (i + 1) (w.count '?'))
    (afterDollars (appendWithPlaceholders .postgres i w)) := by
  induction w generalizing i with
  | nil => exact .nil
  | cons c w ih =>
    rw [List.mem_cons, not_or] at h
    have hrest := ih h.2
    rw [appendWithPlaceholders]
    by_cases hc : c = '?'
    · subst hc
      rw [if_pos rfl, List.count_cons_self, List.range'_succ, numbers_placeholder]
      exact .cons (List.prefix_append _ _) (hrest (i + 1))
    · rw [if_neg hc, List.count_cons_of_ne hc, afterDollars, if_neg (Ne.symm h.1)]
      exact hrest i

/-! ## The numbers that are read -/

theorem holeNumbers_scan (h : '$' ∉ w) (r n : ℕ) :
    holeNumbers (numbers r n (toSlots w)) = List.range' (r + 1) (w.count '?') := by
  induction w generalizing r n with
  | nil => rfl
  | cons c w ih =>
    rw [List.mem_cons, not_or] at h
    by_cases hc : c = '?'
    · subst hc
      rw [List.count_cons_self, List.range'_succ, ← ih h.2 (r + 1) (n + 1)]
      rfl
    · have hs : toSlots (c :: w) = .char c hc :: toSlots w := by simp [toSlots, toSlot, hc]
      rw [hs, List.count_cons_of_ne hc, ← ih h.2 r n]
      rfl

theorem holeNumbers_numbered (h : '$' ∉ w) (hS : Separated (toSlots w)) :
    holeNumbers (numbered (appendWithPlaceholders .postgres 0 w)) =
      List.range' 1 (w.count '?') := by
  have hscan := appendWithPlaceholders_render 0 0 (toSlots w)
  rw [render_toSlots] at hscan
  rw [hscan, numbered, numbered_rewritten hS (by simp), ← holeNumbers_scan h 0 0]
  rfl

/-! ## SET and WHERE -/

theorem buildSql_update {q : Query} (hop : q.op = .update) (hs : q.setClause ≠ [])
    (hw : q.where_ ≠ []) : buildSql q = "UPDATE ".toList ++ qident q.bt q.model.table ++
      " SET ".toList ++ appendWithPlaceholders q.bt 0 q.setClause ++ " WHERE ".toList ++
        appendWithPlaceholders q.bt (q.setClause.count '?') q.where_ := by
  have hbuild : buildSql q = buildUpdate q := by
    unfold buildSql
    rw [hop]
  unfold buildUpdate at hbuild
  rw [if_neg hs, whereText, if_neg hw, whereOffset, if_neg hs, ← List.append_assoc] at hbuild
  exact hbuild

/-- **The placeholders of an UPDATE**, for every SET text `s` and every WHERE text `w` without `$`:
for PostgreSQL the `i`-th `?` of `s` followed by `w` is written `$i` and every other character
stays, so that after the `$` of the two texts stand the numbers from 1 on, each once and in order;
and they are read as such unless a digit was written directly behind a `?`. SQLite and MySQL get the
texts as they are. -/
theorem update_numbered {q : Query} {s w : Text} (hop : q.op = .update) (hset : q.setClause = s)
    (hwhere : q.where_ = w) (hs : s ≠ []) (hw : w ≠ []) (hsd : '$' ∉ s) (hwd : '$' ∉ w) :
    (q.bt ≠ .postgres → buildSql q = "UPDATE ".toList ++ qident q.bt q.model.table ++
      " SET ".toList ++ s ++ " WHERE ".toList ++ w) ∧
    (q.bt = .postgres → ∃ s' w', s' = numberedSpan (s ++ w) 0 s.length ∧
      w' = numberedSpan (s ++ w) s.length w.length ∧
      buildSql q = "UPDATE ".toList ++ qident q.bt q.model.table ++ " SET ".toList ++ s' ++
        " WHERE ".toList ++ w' ∧
      Numbers (List.range' 1 ((s ++ w).count '?'))
        (afterDollars (s' ++ " WHERE ".toList ++ w')) ∧
      (Separated (toSlots (s ++ " WHERE ".toList ++ w)) →
        holeNumbers (numbered (s' ++ " WHERE ".toList ++ w')) =
          List.range' 1 ((s ++ w).count '?'))) := by
  have hbuild := buildSql_update hop (hset ▸ hs) (hwhere ▸ hw)
  rw [hset, hwhere] at hbuild
  have hkw : '?' ∉ " WHERE ".toList := by decide
  have hkd : '$' ∉ " WHERE ".toList := by decide
  constructor
  · intro hbt
    rw [hbuild, appendWithPlaceholders_id (fun h => absurd h hbt),
      appendWithPlaceholders_id (fun h => absurd h hbt)]
  · intro hbt
    have hs' : numberedSpan (s ++ w) 0 s.length = appendWithPlaceholders .postgres 0 s :=
      numberedSpan_eq [] s w
    have hw' : numberedSpan (s ++ w) s.length w.length =
        appendWithPlaceholders .postgres (s.count '?') w := by
      rw [← numberedSpan_eq s w [], List.append_nil]
    -- the keyword between the texts has no `?`, so that they are scanned as one text
    have hwhole : appendWithPlaceholders .postgres 0 s ++ " WHERE ".toList ++
        appendWithPlaceholders .postgres (s.count '?') w =
          appendWithPlaceholders .postgres 0 (s ++ " WHERE ".toList ++ w) := by
      rw [appendWithPlaceholders_append, appendWithPlaceholders_append,
        appendWithPlaceholders_id (w := " WHERE ".toList) fun _ => hkw, List.count_append,
        List.count_eq_zero.mpr hkw, Nat.zero_add, Nat.add_zero]
    have hcount : (s ++ w).count '?' = (s ++ " WHERE ".toList ++ w).count '?' := by
      rw [List.count_append, List.count_append, List.count_append, List.count_eq_zero.mpr hkw,
        Nat.add_zero]
    have hdollar : '$' ∉ s ++ " WHERE ".toList ++ w := by simp [hsd, hwd]
    refine ⟨_, _, rfl, rfl, ?_, ?_, ?_⟩
    · rw [hbuild, hs', hw', hbt]
    · rw [hs', hw', hwhole, hcount]
      exact numbers_scan hdollar 0
    · intro hS
      rw [hs', hw', hwhole, hcount]
      exact holeNumbers_numbered hdollar hS

/-! ## An update of two columns -/

/-- The model of `test_query.c`. -/
def testUserModel : Model where
  tableName := some "test_users".toList
  structSize := 264
  fields := [⟨some "id".toList, .int, 4, 3⟩, ⟨some "name".toList, .string, 256, 4⟩,
    ⟨some "age".toList, .int, 4, 0⟩]
  primaryKey := some ⟨some "id".toList, .int, 4, 3⟩
  primaryKey_mem := by simp
  beforeCreate := none
  afterCreate := none
  beforeUpdate := none
  afterUpdate := none
  beforeDelete := none
  afterDelete := none
  afterFind := none

/-- `name = ?, age = ?` where `id = ? OR id = ?`. -/
def renameUsers : Query :=
  queryOrWhere (queryWhere (querySetRaw (queryNew .postgres testUserModel)
    "name = ?, age = ?".toList) "id = ?".toList) "id = ?".toList

example : buildSql renameUsers =
    "UPDATE \"test_users\" SET name = $1, age = $2 WHERE id = $3 OR id = $4".toList := by
  decide +kernel

theorem update_numbered_renameUsers : ∃ s' w',
    buildSql renameUsers = "UPDATE ".toList ++ qident .postgres testUserModel.table ++
      " SET ".toList ++ s' ++ " WHERE ".toList ++ w' ∧
    Numbers [1, 2, 3, 4] (afterDollars (s' ++ " WHERE ".toList ++ w')) := by
  have hnum := (update_numbered (q := renameUsers) (s := "name = ?, age = ?".toList)
    (w := "id = ? OR id = ?".toList) rfl rfl (by decide +kernel) (by decide) (by decide)
    (by decide) (by decide)).2 rfl
  obtain ⟨s', w', -, -, hbuild, hnums, -⟩ := hnum
  exact ⟨s', w', hbuild, hnums⟩

end Corm
