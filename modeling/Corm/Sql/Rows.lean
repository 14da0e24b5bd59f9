import Corm.Sql.Stmt

/-!
# An INSERT of several rows

* `readInserts`: the text of an INSERT of several rows, as the INSERTs of one row each;
* `rowItems`, **`parse_inserts`**: reading the rows.
-/

namespace Sql

variable {V : Type}

/-- Values between commas, up to the closing parenthesis of the last row. -/
def rows : List (Item V) → Option (List (List V))
  | .val v :: .tok (.sym c) :: is =>
    if c = ',' then (rows is).bind fun
      | r :: rs => some ((v :: r) :: rs)
      | [] => none
    else if c = ')' then
      match is with
      | [] => some [[v]]
      | .tok (.sym d) :: .tok (.sym e) :: rest =>
        if d = ',' ∧ e = '(' then (rows rest).map ([v] :: ·) else none
      | _ => none
    else none
  | _ => none

/-- Read an INSERT of several rows, each with a value for every column. -/
def parseInserts (is : List (Item V)) : Option (List (Stmt V)) := do
  let is ← keyword "INSERT".toList is
  let is ← keyword "INTO".toList is
  let (t, is) ← name is
  let is ← symbol '(' is
  let (cols, is) ← names is
  let is ← keyword "VALUES".toList is
  let is ← symbol '(' is
  let rs ← rows is
  if ∀ r ∈ rs, cols.length = r.length then some (rs.map (.insert t cols)) else none

/-- Read a text with the values of its placeholders as an INSERT of several rows. -/
def readInserts (δ : Dialect) (text : List Char) (vs : List V) : Option (List (Stmt V)) := do
  let ts ← lex δ text
  let is ← fill vs 0 ts
  parseInserts is

/-! ## The form of the statement -/

/-- Rows between commas, after the first parenthesis. -/
def rowItems : List (List V) → List (Item V)
  | [] => []
  | [r] => valItems r
  | r :: rs => valItems r ++ symItem ',' :: symItem '(' :: rowItems rs

theorem rows_comma (v : V) (is : List (Item V)) :
    rows (.val v :: symItem ',' :: is) = (rows is).bind fun
      | r :: rs => some ((v :: r) :: rs)
      | [] => none := by
  rw [rows.eq_def]
  simp [symItem]

theorem rows_single {r : List V} (hne : r ≠ []) : rows (valItems r) = some [r] := by
  induction r with
  | nil => exact absurd rfl hne
  | cons v r ih =>
    cases r with
    | nil => simp [valItems, symItem, rows]
    | cons v' r =>
      have he : valItems (v :: v' :: r) = .val v :: symItem ',' :: valItems (v' :: r) := rfl
      rw [he, rows_comma, ih (by simp)]
      rfl

theorem rows_cons {r : List V} (hne : r ≠ []) (rest : List (Item V)) :
    rows (valItems r ++ symItem ',' :: symItem '(' :: rest) = (rows rest).map (r :: ·) := by
  induction r with
  | nil => exact absurd rfl hne
  | cons v r ih =>
    cases r with
    | nil => simp [valItems, symItem, rows]
    | cons v' r =>
      have he : valItems (v :: v' :: r) ++ symItem ',' :: symItem '(' :: rest =
          .val v :: symItem ',' :: (valItems (v' :: r) ++ symItem ',' :: symItem '(' :: rest) := rfl
      rw [he, rows_comma, ih (by simp)]
      cases rows rest <;> rfl

theorem rows_rowItems {rs : List (List V)} (hne : rs ≠ []) (hrs : ∀ r ∈ rs, r ≠ []) :
    rows (rowItems rs) = some rs := by
  induction rs with
  | nil => exact absurd rfl hne
  | cons r rs ih =>
    have hr := hrs r List.mem_cons_self
    cases rs with
    | nil => exact rows_single hr
    | cons r' rs =>
      have hrest := ih (by simp) fun x hx => hrs x (List.mem_cons_of_mem _ hx)
      rw [rowItems, rows_cons hr, hrest]
      · rfl
      · simp

theorem parse_inserts {q : Quote} (hq : q ≠ .single) (t : List Char) {cols : List (List Char)}
    {rs : List (List V)} (hne : cols ≠ []) (hrs : rs ≠ [])
    (hlen : ∀ r ∈ rs, cols.length = r.length) :
    parseInserts (kwItem "INSERT" :: kwItem "INTO" :: nameItem q t :: symItem '(' ::
      (nameItems q cols ++ kwItem "VALUES" :: symItem '(' :: rowItems rs)) =
        some (rs.map (.insert t cols)) := by
  have hrow : ∀ r ∈ rs, r ≠ [] := by
    rintro r hr rfl
    exact hne (List.length_eq_zero_iff.mp (hlen _ hr))
  have hrows := rows_rowItems hrs hrow
  simp (disch := decide) only [parseInserts, keyword_kwItem, name_nameItem hq, symbol_symItem,
    names_nameItems hq hne, hrows, Option.bind_eq_bind, Option.bind_some]
  exact if_pos hlen

end Sql
