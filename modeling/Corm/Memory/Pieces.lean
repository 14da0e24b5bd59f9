import Corm.Builder

/-!
# The pieces of a statement

The texts that `corm_build_sql` appends, one after the other.

* `placeholderPieces`, `selectPieces`, `updatePieces`, `deletePieces`: the pieces;
* `flatten_selectPieces`, `flatten_updatePieces`, `flatten_deletePieces`: together they are the text;
* **`length_whereText_lt`**: a WHERE that is cut short makes a shorter statement.
-/

namespace Corm

/-! ## Pieces -/

/-- The pieces of `qident`. -/
def qidentPieces (bt : BackendType) (name : Text) : List Text :=
  [dialectQuote bt, name, dialectQuote bt]

/-- The pieces of `append_with_placeholders`, after the text `seg` without `?`. -/
def placeholderPieces (bt : BackendType) (pi : ℕ) (seg : Text) : Text → List Text
  | [] => if seg = [] then [] else [seg]
  | c :: text =>
    if c = '?' then seg :: placeholderStr bt pi :: placeholderPieces bt (pi + 1) [] text
    else placeholderPieces bt pi (seg ++ [c]) text

variable (q : Query)

/-- The pieces of the WHERE. -/
def wherePieces (startIndex : ℕ) : List Text :=
  if q.where_ = [] then [] else " WHERE ".toList :: placeholderPieces q.bt startIndex [] q.where_

/-- The one piece of a clause, if there is one. -/
def clausePieces (keyword text : Text) : List Text := if text = [] then [] else [keyword ++ text]

/-- The pieces of LIMIT and OFFSET. -/
def limitPieces : List Text :=
  if 0 < q.limit ∨ 0 < q.offset then
    (" LIMIT ".toList ++ (toString q.limit).toList) ::
      if 0 < q.offset then [" OFFSET ".toList ++ (toString q.offset).toList] else []
  else []

/-- The pieces of the case `CORM_OP_SELECT`. -/
def selectPieces : List Text :=
  ["SELECT ".toList] ++ (if q.distinct then ["DISTINCT ".toList] else []) ++
    [if q.selectCols = [] then "*".toList else q.selectCols] ++ [" FROM ".toList] ++
    qidentPieces q.bt q.model.table ++ clausePieces " ".toList q.joins ++ wherePieces q 0 ++
    clausePieces " GROUP BY ".toList q.group ++ clausePieces " HAVING ".toList q.having_ ++
    clausePieces " ORDER BY ".toList q.order ++ limitPieces q

/-- The loop over the fields of an UPDATE without a SET clause, after `count` of them. -/
def defaultPieces (bt : BackendType) (count : ℕ) : List Field → List Text
  | [] => []
  | f :: fs =>
    if f.isPrimary then defaultPieces bt count fs
    else
      (if 0 < count then [", ".toList] else []) ++ qidentPieces bt f.nm ++ [" = ".toList] ++
        [placeholderStr bt count] ++ defaultPieces bt (count + 1) fs

/-- The pieces of the case `CORM_OP_UPDATE`. -/
def updatePieces : List Text :=
  ["UPDATE ".toList] ++ qidentPieces q.bt q.model.table ++ [" SET ".toList] ++
    (if q.setClause = [] then defaultPieces q.bt 0 q.model.fields
      else placeholderPieces q.bt 0 [] q.setClause) ++
    wherePieces q (whereOffset q)

/-- The pieces of the case `CORM_OP_DELETE`. -/
def deletePieces : List Text :=
  ["DELETE FROM ".toList] ++ qidentPieces q.bt q.model.table ++ wherePieces q 0

/-! ## Together -/

variable {q} {bt : BackendType}

theorem flatten_qidentPieces (bt : BackendType) (name : Text) :
    (qidentPieces bt name).flatten = qident bt name := by simp [qidentPieces, qident]

theorem flatten_placeholderPieces (bt : BackendType) (i : ℕ) (seg text : Text) :
    (placeholderPieces bt i seg text).flatten = seg ++ appendWithPlaceholders bt i text := by
  induction text generalizing i seg with
  | nil =>
    rw [placeholderPieces, appendWithPlaceholders]
    split_ifs with h <;> simp [h]
  | cons c text ih =>
    rw [placeholderPieces, appendWithPlaceholders]
    split_ifs
    · rw [List.flatten_cons, List.flatten_cons, ih]
      simp
    · rw [ih]
      simp

theorem flatten_wherePieces (i : ℕ) : (wherePieces q i).flatten = whereText q i := by
  rw [wherePieces, whereText]
  split_ifs
  · rfl
  · rw [List.flatten_cons, flatten_placeholderPieces]
    rfl

theorem flatten_clausePieces (keyword text : Text) :
    (clausePieces keyword text).flatten = clause keyword text := by
  rw [clausePieces, clause]
  split_ifs <;> simp

theorem flatten_limitPieces : (limitPieces q).flatten = limitText q := by
  rw [limitPieces, limitText]
  split_ifs <;> simp

theorem flatten_selectPieces (q : Query) : (selectPieces q).flatten = buildSelect q := by
  have hdistinct : (if q.distinct then ["DISTINCT ".toList] else []).flatten =
      if q.distinct then "DISTINCT ".toList else [] := by split_ifs <;> rfl
  unfold selectPieces buildSelect
  repeat rw [List.flatten_append]
  rw [flatten_limitPieces, flatten_wherePieces, flatten_qidentPieces, hdistinct]
  repeat rw [flatten_clausePieces]
  repeat rw [List.flatten_singleton]

theorem flatten_deletePieces (q : Query) : (deletePieces q).flatten = buildDelete q := by
  unfold deletePieces buildDelete
  repeat rw [List.flatten_append]
  rw [flatten_wherePieces, flatten_qidentPieces, List.flatten_singleton]

theorem flatten_defaultPieces_cons (bt : BackendType) (count : ℕ) {f : Field} (fs : List Field)
    (hf : f.isPrimary = false) : (defaultPieces bt count (f :: fs)).flatten =
      (if 0 < count then ", ".toList else []) ++
        (qident bt f.nm ++ " = ".toList ++ placeholderStr bt count) ++
          (defaultPieces bt (count + 1) fs).flatten := by
  have hsep : (if 0 < count then [", ".toList] else []).flatten =
      if 0 < count then ", ".toList else [] := by split_ifs <;> rfl
  rw [defaultPieces, if_neg (by rw [hf]; decide)]
  repeat rw [List.flatten_append]
  rw [hsep, flatten_qidentPieces]
  repeat rw [List.flatten_singleton]
  simp only [List.append_assoc]

theorem defaultPieces_primary (bt : BackendType) (count : ℕ) {f : Field} (fs : List Field)
    (hf : f.isPrimary = true) : defaultPieces bt count (f :: fs) = defaultPieces bt count fs := by
  rw [defaultPieces, if_pos hf]

theorem flatten_defaultPieces_succ (bt : BackendType) (count : ℕ) (fs : List Field) :
    (defaultPieces bt (count + 1) fs).flatten =
      led ((fs.filter fun f => !f.isPrimary).mapIdx fun i f =>
        qident bt f.nm ++ " = ".toList ++ placeholderStr bt (count + 1 + i)) := by
  induction fs generalizing count with
  | nil => rfl
  | cons f fs ih =>
    cases hf : f.isPrimary with
    | true => simpa [hf, defaultPieces_primary] using ih count
    | false =>
      have hfilter : (f :: fs).filter (fun f => !f.isPrimary) =
          f :: fs.filter fun f => !f.isPrimary := by simp [hf]
      rw [flatten_defaultPieces_cons bt _ fs hf, ih, if_pos (Nat.succ_pos count), hfilter,
        List.mapIdx_cons, led, led, List.flatMap_cons]
      congr 3
      funext i g
      congr 2
      omega

theorem flatten_defaultPieces (bt : BackendType) (fs : List Field) :
    (defaultPieces bt 0 fs).flatten =
      commaSep ((fs.filter fun f => !f.isPrimary).mapIdx fun i f =>
        qident bt f.nm ++ " = ".toList ++ placeholderStr bt i) := by
  induction fs with
  | nil => rfl
  | cons f fs ih =>
    cases hf : f.isPrimary with
    | true => simpa [hf, defaultPieces_primary] using ih
    | false =>
      have hfilter : (f :: fs).filter (fun f => !f.isPrimary) =
          f :: fs.filter fun f => !f.isPrimary := by simp [hf]
      rw [flatten_defaultPieces_cons bt _ fs hf, flatten_defaultPieces_succ,
        if_neg (Nat.lt_irrefl 0), hfilter, List.mapIdx_cons, commaSep_cons, List.nil_append]
      congr 3
      funext i g
      congr 2
      omega

theorem flatten_updatePieces (q : Query) : (updatePieces q).flatten = buildUpdate q := by
  have hsets : (if q.setClause = [] then defaultPieces q.bt 0 q.model.fields
      else placeholderPieces q.bt 0 [] q.setClause).flatten =
        if q.setClause = [] then defaultSets q else appendWithPlaceholders q.bt 0 q.setClause := by
    split_ifs
    · exact flatten_defaultPieces q.bt q.model.fields
    · rw [flatten_placeholderPieces]
      rfl
  unfold updatePieces buildUpdate
  repeat rw [List.flatten_append]
  rw [flatten_wherePieces, flatten_qidentPieces, hsets]
  repeat rw [List.flatten_singleton]

/-! ## Lengths -/

theorem length_placeholder_pos (bt : BackendType) (i : ℕ) : 1 ≤ (placeholderStr bt i).length := by
  cases bt <;> simp [placeholderStr]

theorem length_placeholder_le (bt : BackendType) {i j : ℕ} (h : i ≤ j) :
    (placeholderStr bt i).length ≤ (placeholderStr bt j).length := by
  cases bt with
  | postgres =>
    have hpos : 0 < (Nat.toDigits 10 (j + 1)).length := Nat.length_toDigits_pos
    have hj := (Nat.length_toDigits_le_iff (n := j + 1) (by decide : 1 < 10) hpos).mp (Nat.le_refl _)
    have hi := (Nat.length_toDigits_le_iff (n := i + 1) (by decide : 1 < 10) hpos).mpr (by omega)
    exact Nat.succ_le_succ hi
  | mysql => exact Nat.le_refl _
  | sqlite => exact Nat.le_refl _

/-- Rewriting some of the characters makes a text that is shorter by as many at least. -/
theorem length_rewritten_le (bt : BackendType) {w w' : Text} (h : List.Sublist w w') {i j : ℕ}
    (hij : i ≤ j) : (appendWithPlaceholders bt i w).length + (w'.length - w.length) ≤
      (appendWithPlaceholders bt j w').length := by
  induction h generalizing i j with
  | slnil => simp [appendWithPlaceholders]
  | cons c hsub ih =>
    have hle := hsub.length_le
    rw [List.length_cons, appendWithPlaceholders]
    split_ifs
    · have hpos := length_placeholder_pos bt j
      have hrest := ih (show i ≤ j + 1 by omega)
      rw [List.length_append]
      omega
    · have hrest := ih hij
      rw [List.length_cons]
      omega
  | cons_cons c hsub ih =>
    rw [List.length_cons, List.length_cons, appendWithPlaceholders, appendWithPlaceholders]
    split_ifs
    · have hmark := length_placeholder_le bt hij
      have hrest := ih (show i + 1 ≤ j + 1 by omega)
      rw [List.length_append, List.length_append]
      omega
    · have hrest := ih hij
      rw [List.length_cons, List.length_cons]
      omega

/-- **A WHERE cut short** is shorter in the statement, too. -/
theorem length_whereText_lt {w w' : Text} (h : List.Sublist w w') (hne : w ≠ w') (q : Query)
    (i : ℕ) :
    (whereText { q with where_ := w } i).length < (whereText { q with where_ := w' } i).length := by
  have hlt : w.length < w'.length := by
    refine Nat.lt_of_le_of_ne h.length_le fun hlen => hne ?_
    exact h.eq_of_length hlen
  have hrest := length_rewritten_le q.bt h (Nat.le_refl i)
  have hw' : w' ≠ [] := by
    rintro rfl
    exact Nat.not_lt_zero _ hlt
  unfold whereText
  simp only [if_neg hw', List.length_append]
  split_ifs with hw
  · have hpos : 0 < " WHERE ".toList.length := by decide
    rw [List.length_nil]
    omega
  · rw [List.length_append]
    omega

end Corm
