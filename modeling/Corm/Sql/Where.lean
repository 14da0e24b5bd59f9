import Corm.Sql.Param

/-!
# Conditions

A condition is read as an OR of ANDs of atomic predicates. AND binds tighter than OR, the AND of a
BETWEEN belongs to it, and what stands in parentheses or brackets or between CASE and END is part of
an atomic predicate. A condition ends where another clause begins.

* `isTail`, `isLater`: the tokens of other clauses;
* `Pos`, `advance`: where the reader stands, and one item;
* `split`, `parseWhere`: the groups of a condition; `holds`: whether a row satisfies them;
* `Atomic`: the texts that are one predicate;
* `andLast`, **`holds_andLast_false`**: a predicate added to the last group, and the rows that fail it.
-/

namespace Sql

/-- What an item does to the condition it stands in. -/
inductive Cut
  /-- It belongs to the current predicate. -/
  | inside
  | and
  | or
  deriving DecidableEq

/-- What an expression in a predicate is enclosed by. -/
inductive Bracket
  | paren
  /-- The brackets of an array or of an index. -/
  | square
  /-- CASE and END. -/
  | case
  deriving DecidableEq

/-- Where the reader of a condition stands: the brackets that are open, the inner ones first, how many
BETWEEN wait for their AND, and whether a predicate or the operand of a CASE is about to begin. -/
structure Pos where
  opened : List Bracket
  between : ℕ
  fresh : Bool
  deriving DecidableEq

/-- At the start of a predicate. -/
def Pos.start : Pos := ⟨[], 0, true⟩

/-- At the end of a predicate. -/
def Pos.settled : Pos := ⟨[], 0, false⟩

/-- The word `w` is the keyword `k`, in either case. -/
def isKw (k w : List Char) : Bool := w.map Char.toUpper == k

/-- The tokens that no clause before the LIMIT goes beyond. -/
def isTail : Tok → Bool
  | .word w => isKw "LIMIT".toList w || ["OFFSET", "FETCH", "FOR", "LOCK"].any (isKw ·.toList w)
  | .sym c => c = ';'
  | _ => false

/-- The tokens that no FROM and no condition goes beyond. -/
def isLater (t : Tok) : Bool :=
  isTail t || match t with
    | .word w => ["WHERE", "GROUP", "HAVING", "WINDOW", "UNION", "INTERSECT", "EXCEPT", "ORDER"].any
        (isKw ·.toList w)
    | _ => false

/-- The words that a predicate cannot begin with. -/
def isConnective (w : List Char) : Bool :=
  isKw ['A', 'N', 'D'] w || isKw ['O', 'R'] w || isKw ['B', 'E', 'T', 'W', 'E', 'E', 'N'] w

/-- The keyword that opens a CASE. -/
def isCase (w : List Char) : Bool := isKw ['C', 'A', 'S', 'E'] w

/-- The words that name no column. -/
def isReserved (w : List Char) : Bool := isConnective w || isCase w

/-- The words that no operand begins with. -/
def isOperator (w : List Char) : Bool :=
  isConnective w || isKw ['I', 'S'] w || isKw ['I', 'N'] w

variable {V : Type}

/-- A word outside parentheses and CASE. The XOR of MySQL, between AND and OR, is not read, and no
clause after the condition. -/
def advanceWord (p : Pos) (w : List Char) : Option (Cut × Pos) :=
  if isConnective w && p.fresh then none
  else if (isKw ['X', 'O', 'R'] w || isLater (.word w)) && !p.fresh then none
  else if isKw ['A', 'N', 'D'] w then
    if p.between = 0 then some (.and, .start) else some (.inside, ⟨[], p.between - 1, false⟩)
  else if isKw ['O', 'R'] w then if p.between = 0 then some (.or, .start) else none
  else if isKw ['B', 'E', 'T', 'W', 'E', 'E', 'N'] w then some (.inside, ⟨[], p.between + 1, false⟩)
  else if isCase w then some (.inside, ⟨[.case], p.between, true⟩)
  else some (.inside, ⟨[], p.between, false⟩)

/-- A word in the bracket `b`, with the brackets `bs` around it. -/
def advanceInner (p : Pos) (b : Bracket) (bs : List Bracket) (w : List Char) : Option (Cut × Pos) :=
  if isOperator w && p.fresh then none
  else if isCase w then some (.inside, ⟨.case :: b :: bs, p.between, true⟩)
  else if isKw ['E', 'N', 'D'] w && b = .case then some (.inside, ⟨bs, p.between, false⟩)
  else some (.inside, ⟨b :: bs, p.between, false⟩)

/-- One item of a condition. -/
def advance (p : Pos) : Item V → Option (Cut × Pos)
  | .tok (.word w) =>
    match p.opened with
    | [] => advanceWord p w
    | b :: bs => advanceInner p b bs w
  | .tok (.sym c) =>
    if c = '(' then some (.inside, ⟨.paren :: p.opened, p.between, false⟩)
    else if c = '[' then some (.inside, ⟨.square :: p.opened, p.between, false⟩)
    else if c = ')' then
      match p.opened with
      | .paren :: bs => some (.inside, ⟨bs, p.between, false⟩)
      | _ => none
    else if c = ']' then
      match p.opened with
      | .square :: bs => some (.inside, ⟨bs, p.between, false⟩)
      | _ => none
    else if c = ';' then none
    else some (.inside, ⟨p.opened, p.between, false⟩)
  | _ => some (.inside, ⟨p.opened, p.between, false⟩)

/-- A condition from the current predicate on: the rest of the predicate, of its group, and the
groups after it. -/
structure Groups (V : Type) where
  atom : List (Item V)
  group : List (List (Item V))
  groups : List (List (List (Item V)))

namespace Groups

variable (d : Groups V)

/-- All groups. -/
def all : List (List (List (Item V))) := (d.atom :: d.group) :: d.groups

/-- The condition with one more item in front. -/
def push (c : Cut) (i : Item V) : Groups V :=
  match c with
  | .inside => ⟨i :: d.atom, d.group, d.groups⟩
  | .and => ⟨[], d.atom :: d.group, d.groups⟩
  | .or => ⟨[], [], (d.atom :: d.group) :: d.groups⟩

/-- The condition with more items in front, all in the current predicate. -/
def pushAll (is : List (Item V)) : Groups V := ⟨is ++ d.atom, d.group, d.groups⟩

end Groups

/-- Read a condition. -/
def split (p : Pos) : List (Item V) → Option (Groups V)
  | [] => if p = .settled then some ⟨[], [], []⟩ else none
  | i :: is => (advance p i).bind fun s => (split s.2 is).map fun d => d.push s.1 i

/-- The groups of a condition. -/
def parseWhere (is : List (Item V)) : Option (List (List (List (Item V)))) :=
  (split .start is).map Groups.all

/-- The position after items that all belong to one predicate. -/
def within (p : Pos) : List (Item V) → Option Pos
  | [] => some p
  | i :: is =>
    match advance p i with
    | some (.inside, p') => within p' is
    | _ => none

/-- The items are one predicate. -/
def Atomic (is : List (Item V)) : Prop := within .start is = some .settled

instance (is : List (Item V)) : Decidable (Atomic is) := by
  unfold Atomic
  infer_instance

/-! ## Reading -/

variable {p p' : Pos} {a b is : List (Item V)} {i : Item V} {d : Groups V}

theorem split_within (h : within p a = some p') (b : List (Item V)) :
    split p (a ++ b) = (split p' b).map (Groups.pushAll · a) := by
  induction a generalizing p with
  | nil =>
    have hp : p = p' := Option.some.inj h
    subst hp
    show split p b = (split p b).map fun d => d.pushAll []
    cases split p b <;> rfl
  | cons i a ih =>
    unfold within at h
    split at h
    · rename_i q hq
      rw [List.cons_append, split, hq, Option.bind_some, ih h, Option.map_map]
      rfl
    · cases h

theorem parseWhere_atomic (h : Atomic a) : parseWhere a = some [[a]] := by
  have hs := split_within h []
  rw [List.append_nil] at hs
  rw [parseWhere, hs]
  simp [split, Groups.all, Groups.pushAll]

/-- The connective AND. -/
def andItem : Item V := .tok (.word ['A', 'N', 'D'])

theorem advance_and : advance .settled (andItem (V := V)) = some (.and, .start) := rfl

theorem advance_name {c : List Char} (h : isReserved c = false) :
    advance .start (.tok (.word c) : Item V) = some (.inside, .settled) := by
  simp only [isReserved, isConnective, Bool.or_eq_false_iff] at h
  simp [advance, advanceWord, isConnective, Pos.start, Pos.settled, h]

theorem advance_connective {c : List Char} (h : isConnective c = true) :
    advance .start (.tok (.word c) : Item V) = none := by
  simp [advance, advanceWord, Pos.start, h]

theorem advance_case {c : List Char} (h : ¬ isConnective c = true) (hc : isCase c = true) :
    advance .start (.tok (.word c) : Item V) = some (.inside, ⟨[.case], 0, true⟩) := by
  have hf := h
  simp only [isConnective, Bool.or_eq_true, not_or] at hf
  simp [advance, advanceWord, Pos.start, h, hf, hc]

/-- Add a predicate to the last group. -/
def andLast (s : List (Item V)) : List (List (List (Item V))) → List (List (List (Item V)))
  | [] => []
  | [g] => [g ++ [s]]
  | g :: gs => g :: andLast s gs

theorem andLast_concat (s : List (Item V)) (gs : List (List (List (Item V))))
    (g : List (List (Item V))) : andLast s (gs ++ [g]) = gs ++ [g ++ [s]] := by
  induction gs with
  | nil => rfl
  | cons g' gs ih =>
    cases gs with
    | nil => rfl
    | cons g'' gs => exact congrArg (g' :: ·) ih

/-! ## Positions -/

/-- The position after some items. -/
def scan (p : Pos) : List (Item V) → Option Pos
  | [] => some p
  | i :: is => (advance p i).bind fun s => scan s.2 is

theorem scan_append (p : Pos) (a b : List (Item V)) :
    scan p (a ++ b) = (scan p a).bind fun p' => scan p' b := by
  induction a generalizing p with
  | nil => rfl
  | cons i a ih =>
    rw [List.cons_append, scan, scan]
    cases advance p i with
    | none => rfl
    | some s => exact ih s.2

theorem scan_of_within (h : within p a = some p') : scan p a = some p' := by
  induction a generalizing p with
  | nil => exact h
  | cons i a ih =>
    unfold within at h
    split at h
    · rename_i q hq
      rw [scan, hq]
      exact ih h
    · cases h

theorem split_isSome_iff : (∃ d, split p is = some d) ↔ scan p is = some .settled := by
  induction is generalizing p with
  | nil =>
    unfold split scan
    by_cases hp : p = .settled
    · simp [hp]
    · simp [hp]
  | cons i is ih =>
    rw [split, scan]
    cases advance p i with
    | none => simp
    | some s =>
      rw [Option.bind_some, Option.bind_some, ← ih]
      constructor
      · rintro ⟨d, hd⟩
        obtain ⟨d', hd', -⟩ := Option.map_eq_some_iff.mp hd
        exact ⟨d', hd'⟩
      · rintro ⟨d, hd⟩
        exact ⟨_, by rw [hd]; rfl⟩

theorem split_eq_none (h : scan p is = none) : split p is = none := by
  cases hd : split p is with
  | none => rfl
  | some d =>
    have hs := split_isSome_iff.mp ⟨d, hd⟩
    rw [h] at hs
    cases hs

/-- The tokens of a text, before values are put in. -/
abbrev bare (ts : List Tok) : List (Item Unit) := ts.map .tok

theorem scan_fill {vs : List V} {n : ℕ} {ts : List Tok} (h : fill vs n ts = some is) :
    scan p is = scan p (bare ts) := by
  induction ts generalizing p n is with
  | nil =>
    cases h
    rfl
  | cons t ts ih =>
    obtain ⟨i, hi, h⟩ := Option.bind_eq_some_iff.mp h
    obtain ⟨is, his, rfl⟩ := Option.map_eq_some_iff.mp h
    have hadv : advance p i = advance p (.tok t : Item Unit) := by
      cases t with
      | param k =>
        obtain ⟨j, -, hj⟩ := Option.bind_eq_some_iff.mp hi
        obtain ⟨v, -, rfl⟩ := Option.map_eq_some_iff.mp hj
        rfl
      | _ =>
        cases hi
        rfl
    rw [bare, List.map_cons, scan, scan, hadv]
    cases advance p (.tok t : Item Unit) with
    | none => rfl
    | some s => exact ih his

/-! ## Truth -/

/-- A row: the value of each column. -/
abbrev Row (V : Type) := List Char → V

/-- What the database decides by itself: the value of NULL, and the truth value of a predicate in a
row, `none` when it is unknown. -/
structure Engine (V : Type) where
  null : V
  pred : List (Item V) → Row V → Option Bool

/-- The row makes every predicate of the group true. -/
def Engine.meets (E : Engine V) (g : List (List (Item V))) (r : Row V) : Bool :=
  g.all fun a => E.pred a r == some true

/-- The row makes the condition true: in three-valued logic an OR of ANDs is true exactly when all
predicates of one of the groups are. -/
def Engine.holds (E : Engine V) (gs : List (List (List (Item V)))) (r : Row V) : Bool :=
  gs.any fun g => E.meets g r

/-- The predicate `c IS NULL`. -/
def isNullItems (c : List Char) : List (Item V) :=
  [.tok (.word c), .tok (.word "IS".toList), .tok (.word "NULL".toList)]

/-- `c IS NULL` tests the column `c`. -/
structure Engine.ReadsNull (E : Engine V) (c : List Char) : Prop where
  name : isReserved c = false
  test : ∀ r, E.pred (isNullItems c) r = some true ↔ r c = E.null

/-- The predicate `c = v`. -/
def eqItems (c : List Char) (v : V) : List (Item V) :=
  [.tok (.word c), .tok (.sym '='), .val v]

/-- `c = v` reads no column but the one with the name `c'`. -/
def Engine.ReadsAt (E : Engine V) (c c' : List Char) : Prop :=
  ∀ v r r', r c' = r' c' → E.pred (eqItems c v) r = E.pred (eqItems c v) r'

/-- `c = v` reads no column but `c`. -/
def Engine.ReadsEq (E : Engine V) (c : List Char) : Prop :=
  ∀ v r r', r c = r' c → E.pred (eqItems c v) r = E.pred (eqItems c v) r'

variable {E : Engine V} {r : Row V} {s : List (Item V)}

theorem parseWhere_eq (c : List Char) (v : V) :
    parseWhere (eqItems c v) = if isReserved c then none else some [[eqItems c v]] := by
  split_ifs with hc
  · rw [parseWhere, eqItems, split]
    by_cases hconn : isConnective c = true
    · rw [advance_connective hconn]
      rfl
    · have hcase : isCase c = true := by simpa [isReserved, hconn] using hc
      rw [advance_case hconn hcase]
      rfl
  · refine parseWhere_atomic ?_
    rw [Atomic, eqItems, within, advance_name (Bool.eq_false_iff.mpr hc)]
    rfl

theorem Engine.ReadsNull.atomic {c : List Char} (h : E.ReadsNull c) :
    Atomic (isNullItems (V := V) c) := by
  rw [Atomic, isNullItems, within, advance_name h.name]
  rfl

theorem holds_single (a : List (Item V)) (r : Row V) :
    E.holds [[a]] r = (E.pred a r == some true) := by
  simp [Engine.holds, Engine.meets]

theorem meets_concat (g : List (List (Item V))) :
    E.meets (g ++ [s]) r = (E.meets g r && (E.pred s r == some true)) := by
  simp [Engine.meets]

/-- **What a predicate added with AND leaves through**: a row that fails it is still selected by any
group but the last. -/
theorem holds_andLast_false (hs : E.pred s r ≠ some true) (gs : List (List (List (Item V)))) :
    E.holds (andLast s gs) r = E.holds gs.dropLast r := by
  rcases List.eq_nil_or_concat gs with rfl | ⟨gs, g, rfl⟩
  · rfl
  · rw [List.concat_eq_append, andLast_concat, List.dropLast_concat]
    simp [Engine.holds, meets_concat, hs]

end Sql
