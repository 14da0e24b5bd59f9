import Corm.Dialect.Holes
import Corm.Reading.Chain

/-!
# The slots of predicates

What the calls that add conditions write, on every dialect.

* `PredCall`: a condition with its values; `predQuery`: the query after a sequence of them;
* `Adds`, `adds_of_piece`: what a call adds, by its kind;
* `skeleton`, **`predQuery_eq`**: the slots that the calls write, and the values they bind;
* `rawFirst_skeleton`: when the `?` stand before the placeholders that have their numbers;
* `separated_skeleton`: when no digit follows a placeholder.
-/

namespace Corm

/-! ## Calls -/

/-- A call that adds a condition, followed by a `corm_query_bind` for each of its values. -/
inductive PredCall
  | where_ (condition : Text) (vals : List Value)
  | orWhere (condition : Text) (vals : List Value)
  | whereIn (field : Option Text) (vals : List Value)
  | whereBetween (field : Option Text) (minVal maxVal : Value)
  | whereNull (field : Option Text)
  | whereNotNull (field : Option Text)

namespace PredCall

/-- The calls of the builder. -/
def calls : PredCall → List WhereCall
  | .where_ condition vals => .where_ condition :: vals.map .bind
  | .orWhere condition vals => .orWhere condition :: vals.map .bind
  | .whereIn field vals => [.whereIn field vals]
  | .whereBetween field minVal maxVal => [.whereBetween field minVal maxVal]
  | .whereNull field => [.whereNull field]
  | .whereNotNull field => [.whereNotNull field]

/-- There is one value for each `?`. -/
def Bound : PredCall → Prop
  | .where_ condition vals => vals.length = condition.count '?'
  | .orWhere condition vals => vals.length = condition.count '?'
  | _ => True

/-- The call has `?` in its condition. -/
def Marks : PredCall → Prop
  | .where_ condition _ => '?' ∈ condition
  | .orWhere condition _ => '?' ∈ condition
  | _ => False

/-- The call writes placeholders with their numbers. -/
def Numbers : PredCall → Prop
  | .whereIn field vals => isValidIdentifier field = true ∧ vals ≠ []
  | .whereBetween field _ _ => isValidIdentifier field = true
  | _ => False

end PredCall

/-- The query after calls on a new one. -/
def predQuery (bt : BackendType) (m : Model) (calls : List PredCall) : Query :=
  chain (queryNew bt m) (calls.flatMap PredCall.calls)

/-! ## Their slots -/

/-- The slots of `n` values between commas, from the value with index `i` on. -/
def inSlots (i : ℕ) : ℕ → List Slot
  | 0 => []
  | n + 1 => toSlots (if 0 < i then ", ".toList else []) ++ .given :: inSlots (i + 1) n

/-- The connective and the slots that a call adds. -/
def PredCall.piece : PredCall → Option (Text × List Slot)
  | .where_ condition _ => some (" AND ".toList, toSlots condition)
  | .orWhere condition _ => some (" OR ".toList, toSlots condition)
  | .whereIn field vals =>
    if isValidIdentifier field && !vals.isEmpty then
      some (" AND ".toList, toSlots (field.getD [] ++ " IN (".toList) ++ inSlots 0 vals.length ++
        toSlots ")".toList)
    else none
  | .whereBetween field _ _ =>
    if isValidIdentifier field then
      some (" AND ".toList, toSlots (field.getD [] ++ " BETWEEN ".toList) ++
        .given :: toSlots " AND ".toList ++ [Slot.given])
    else none
  | .whereNull field =>
    if isValidIdentifier field then
      some (" AND ".toList, toSlots (field.getD [] ++ " IS NULL".toList))
    else none
  | .whereNotNull field =>
    if isValidIdentifier field then
      some (" AND ".toList, toSlots (field.getD [] ++ " IS NOT NULL".toList))
    else none

/-- The values that a call binds. -/
def PredCall.vals : PredCall → List Value
  | .where_ _ vals => vals
  | .orWhere _ vals => vals
  | .whereIn field vals => if isValidIdentifier field && !vals.isEmpty then vals else []
  | .whereBetween field minVal maxVal =>
    if isValidIdentifier field then [minVal, maxVal] else []
  | _ => []

/-- The slots with one more piece. -/
def addPiece (S : List Slot) : Option (Text × List Slot) → List Slot
  | some (connective, T) => (if S = [] then [] else S ++ toSlots connective) ++ T
  | none => S

/-- The slots of the WHERE of a sequence of calls. -/
def skeleton (calls : List PredCall) : List Slot :=
  calls.foldl (fun S c => addPiece S c.piece) []

variable {bt : BackendType} {m : Model} {calls : List PredCall} {c : PredCall} {S T : List Slot}
  {q : Query} {n : ℕ}

theorem render_eq_nil_iff : render bt n S = [] ↔ S = [] := by
  cases S with
  | nil => simp [render]
  | cons a S =>
    cases a with
    | given => cases bt <;> simp [render, placeholderStr]
    | _ => simp [render]

theorem toSlots_append (v w : Text) : toSlots (v ++ w) = toSlots v ++ toSlots w := List.map_append

theorem render_inSlots (k i n : ℕ) : render bt k (inSlots i n) = inText bt k i n := by
  induction n generalizing k i with
  | zero => rfl
  | succ n ih =>
    have hc : (if 0 < i then ", ".toList else []).count '?' = 0 := by split_ifs <;> decide
    rw [inSlots, render_append, render_toSlots, holes_toSlots, hc, render, ih, inText,
      List.append_assoc, Nat.add_zero]

theorem holes_inSlots (i n : ℕ) : holes (inSlots i n) = n := by
  induction n generalizing i with
  | zero => rfl
  | succ n ih =>
    have hc : (if 0 < i then ", ".toList else []).count '?' = 0 := by split_ifs <;> decide
    rw [inSlots, holes_append, holes_toSlots, hc, holes, ih, Nat.zero_add]

theorem holes_plain {w : Text} (h : '?' ∉ w) : holes (toSlots w) = 0 := by
  rw [holes_toSlots]
  exact List.count_eq_zero.mpr h

theorem chain_bind (q : Query) (vals : List Value) :
    chain q (vals.map .bind) = { q with params := q.params ++ vals } := by
  induction vals generalizing q with
  | nil => simp [chain]
  | cons v vals ih =>
    show chain (queryBind q v) (vals.map .bind) = _
    rw [ih]
    simp [queryBind]

/-- The slots of a WHERE, and one parameter for each hole. -/
structure Skeleton (q : Query) (S : List Slot) : Prop where
  where_ : q.where_ = render q.bt 0 S
  params : q.params.length = holes S

theorem Skeleton.sep (h : Skeleton q S) (connective : Text) :
    whereSep q connective = render q.bt 0 (if S = [] then [] else S ++ toSlots connective) := by
  unfold whereSep
  rw [h.where_]
  simp only [render_eq_nil_iff]
  split_ifs
  · rfl
  · rw [render_append, render_toSlots]

theorem notMem_ident {f : Text} (hf : isValidIdentifier (some f) = true) {w : Text}
    (hw : '?' ∉ w) : '?' ∉ f ++ w := notMem_append (Ident.notMem (s := f) hf rfl) hw

theorem render_in {f : Text} (hf : isValidIdentifier (some f) = true) (bt : BackendType)
    (k n : ℕ) : render bt k (toSlots (f ++ " IN (".toList) ++ inSlots 0 n ++ toSlots ")".toList) =
      f ++ " IN (".toList ++ inText bt k 0 n ++ ")".toList := by
  have hw : '?' ∉ " IN (".toList := by decide
  rw [render_append, render_append, render_toSlots, render_toSlots,
    holes_plain (notMem_ident hf hw), render_inSlots, Nat.add_zero]

theorem render_between {f : Text} (hf : isValidIdentifier (some f) = true) (bt : BackendType)
    (k : ℕ) : render bt k (toSlots (f ++ " BETWEEN ".toList) ++ .given :: toSlots " AND ".toList ++
      [.given]) = f ++ " BETWEEN ".toList ++ placeholderStr bt k ++ " AND ".toList ++
        placeholderStr bt (k + 1) := by
  have hw : '?' ∉ " BETWEEN ".toList := by decide
  have ha : '?' ∉ " AND ".toList := by decide
  rw [render_append, render_append, render_toSlots, holes_append, holes_plain (notMem_ident hf hw),
    Nat.add_zero, Nat.zero_add, render, render_toSlots, holes, holes_plain ha, render, render]
  simp only [List.append_assoc, List.append_nil, Nat.zero_add]

/-- What a call adds to the WHERE. -/
def addText (q : Query) (k : ℕ) : Option (Text × List Slot) → Text
  | some (connective, T) => whereSep q connective ++ render q.bt k T
  | none => q.where_

/-- **What a call does** to a query. -/
theorem chain_calls (q : Query) (c : PredCall) : chain q c.calls = { q with
    where_ := addText q q.params.length c.piece
    params := q.params ++ c.vals } := by
  have hsame : q = { q with where_ := q.where_, params := q.params ++ [] } := by simp
  cases c with
  | where_ condition vals =>
    show chain (queryWhere q condition) (vals.map .bind) = _
    rw [chain_bind, PredCall.piece, addText, render_toSlots]
    rfl
  | orWhere condition vals =>
    show chain (queryOrWhere q condition) (vals.map .bind) = _
    rw [chain_bind, PredCall.piece, addText, render_toSlots]
    rfl
  | whereNull field =>
    cases field with
    | none => exact hsame
    | some f =>
      show queryWhereNull q (some f) = _
      rw [queryWhereNull, PredCall.piece]
      split_ifs with hf
      · rw [addText, render_toSlots]
        simp [PredCall.vals]
      · exact hsame
  | whereNotNull field =>
    cases field with
    | none => exact hsame
    | some f =>
      show queryWhereNotNull q (some f) = _
      rw [queryWhereNotNull, PredCall.piece]
      split_ifs with hf
      · rw [addText, render_toSlots]
        simp [PredCall.vals]
      · exact hsame
  | whereIn field vals =>
    cases field with
    | none => exact hsame
    | some f =>
      show queryWhereIn q (some f) vals = _
      rw [queryWhereIn, PredCall.piece, PredCall.vals]
      split_ifs with hf
      · have hid : isValidIdentifier (some f) = true := (Bool.and_eq_true_iff.mp hf).1
        rw [addText, Option.getD_some, render_in hid]
        simp only [whereInLoop_eq, List.append_assoc]
      · exact hsame
  | whereBetween field minVal maxVal =>
    cases field with
    | none => exact hsame
    | some f =>
      show queryWhereBetween q (some f) minVal maxVal = _
      rw [queryWhereBetween, PredCall.piece, PredCall.vals]
      split_ifs with hf
      · rw [addText, Option.getD_some, render_between hf]
        simp only [queryBind, List.length_append, List.length_singleton, List.append_assoc,
          List.singleton_append]
      · exact hsame

/-- A call that adds to the WHERE, with its connective and its slots. -/
inductive Adds : PredCall → Text × List Slot → Prop
  | where_ (condition : Text) (vals : List Value) :
    Adds (.where_ condition vals) (" AND ".toList, toSlots condition)
  | orWhere (condition : Text) (vals : List Value) :
    Adds (.orWhere condition vals) (" OR ".toList, toSlots condition)
  | whereIn {f : Text} {vals : List Value} (hf : isValidIdentifier (some f) = true)
    (hne : vals ≠ []) :
    Adds (.whereIn (some f) vals)
      (" AND ".toList, toSlots (f ++ " IN (".toList) ++ inSlots 0 vals.length ++
        toSlots ")".toList)
  | whereBetween {f : Text} (minVal maxVal : Value) (hf : isValidIdentifier (some f) = true) :
    Adds (.whereBetween (some f) minVal maxVal)
      (" AND ".toList, toSlots (f ++ " BETWEEN ".toList) ++
        .given :: toSlots " AND ".toList ++ [Slot.given])
  | whereNull {f : Text} (hf : isValidIdentifier (some f) = true) :
    Adds (.whereNull (some f)) (" AND ".toList, toSlots (f ++ " IS NULL".toList))
  | whereNotNull {f : Text} (hf : isValidIdentifier (some f) = true) :
    Adds (.whereNotNull (some f)) (" AND ".toList, toSlots (f ++ " IS NOT NULL".toList))

/-- **What a call adds**, by the kind of call; a field is a valid identifier. -/
theorem adds_of_piece {p : Text × List Slot} (hp : c.piece = some p) : Adds c p := by
  have hfield {field : Option Text} (hf : isValidIdentifier field = true) :
      ∃ f, field = some f := by
    cases field with
    | none => cases hf
    | some f => exact ⟨f, rfl⟩
  cases c with
  | where_ condition vals =>
    obtain rfl := Option.some.inj hp
    exact .where_ condition vals
  | orWhere condition vals =>
    obtain rfl := Option.some.inj hp
    exact .orWhere condition vals
  | whereNull field =>
    rw [PredCall.piece] at hp
    split_ifs at hp with hf
    obtain ⟨f, rfl⟩ := hfield hf
    obtain rfl := Option.some.inj hp
    exact .whereNull hf
  | whereNotNull field =>
    rw [PredCall.piece] at hp
    split_ifs at hp with hf
    obtain ⟨f, rfl⟩ := hfield hf
    obtain rfl := Option.some.inj hp
    exact .whereNotNull hf
  | whereIn field vals =>
    rw [PredCall.piece] at hp
    split_ifs at hp with hf
    obtain ⟨hid, hne⟩ := Bool.and_eq_true_iff.mp hf
    obtain ⟨f, rfl⟩ := hfield hid
    obtain rfl := Option.some.inj hp
    exact .whereIn hid (by simpa using hne)
  | whereBetween field minVal maxVal =>
    rw [PredCall.piece] at hp
    split_ifs at hp with hf
    obtain ⟨f, rfl⟩ := hfield hf
    obtain rfl := Option.some.inj hp
    exact .whereBetween minVal maxVal hf

theorem vals_whereIn {f : Text} {vals : List Value} (hf : isValidIdentifier (some f) = true)
    (hne : vals ≠ []) : (PredCall.whereIn (some f) vals).vals = vals :=
  if_pos (Bool.and_eq_true_iff.mpr ⟨hf, by simpa using hne⟩)

theorem vals_whereBetween {f : Text} (minVal maxVal : Value)
    (hf : isValidIdentifier (some f) = true) :
    (PredCall.whereBetween (some f) minVal maxVal).vals = [minVal, maxVal] := if_pos hf

theorem piece_holes (hc : c.Bound) {p : Text × List Slot} (hp : c.piece = some p) :
    '?' ∉ p.1 ∧ c.vals.length = holes p.2 := by
  have hand : '?' ∉ " AND ".toList := by decide
  have hor : '?' ∉ " OR ".toList := by decide
  cases adds_of_piece hp with
  | where_ condition vals => exact ⟨hand, hc.trans (holes_toSlots _).symm⟩
  | orWhere condition vals => exact ⟨hor, hc.trans (holes_toSlots _).symm⟩
  | whereNull hf =>
    have hw : '?' ∉ " IS NULL".toList := by decide
    exact ⟨hand, (holes_plain (notMem_ident hf hw)).symm⟩
  | whereNotNull hf =>
    have hw : '?' ∉ " IS NOT NULL".toList := by decide
    exact ⟨hand, (holes_plain (notMem_ident hf hw)).symm⟩
  | whereIn hf hne =>
    have hw : '?' ∉ " IN (".toList := by decide
    have hw' : '?' ∉ ")".toList := by decide
    refine ⟨hand, ?_⟩
    rw [vals_whereIn hf hne, holes_append, holes_append, holes_plain hw', holes_inSlots,
      holes_plain (notMem_ident hf hw), Nat.zero_add, Nat.add_zero]
  | whereBetween minVal maxVal hf =>
    have hw : '?' ∉ " BETWEEN ".toList := by decide
    have ha : '?' ∉ " AND ".toList := by decide
    refine ⟨hand, ?_⟩
    rw [vals_whereBetween minVal maxVal hf, holes_append, holes_append,
      holes_plain (notMem_ident hf hw), holes, holes_plain ha]
    rfl

theorem piece_none (hp : c.piece = none) : c.vals = [] := by
  cases c with
  | where_ => cases hp
  | orWhere => cases hp
  | whereNull => rfl
  | whereNotNull => rfl
  | whereIn field vals =>
    rw [PredCall.piece] at hp
    split_ifs at hp with hf
    exact if_neg hf
  | whereBetween field minVal maxVal =>
    rw [PredCall.piece] at hp
    split_ifs at hp with hf
    exact if_neg hf

theorem Skeleton.apply (h : Skeleton q S) (hc : c.Bound) :
    Skeleton (chain q c.calls) (addPiece S c.piece) := by
  rw [chain_calls]
  cases hp : c.piece with
  | none =>
    rw [piece_none hp]
    exact ⟨h.where_, by simpa [addPiece] using h.params⟩
  | some p =>
    obtain ⟨hk, hv⟩ := piece_holes hc hp
    have hsep : holes (if S = [] then [] else S ++ toSlots p.1) = holes S := by
      split_ifs with hS
      · rw [hS]
      · rw [holes_append, holes_plain hk, Nat.add_zero]
    constructor
    · show whereSep q p.1 ++ render q.bt q.params.length p.2 = render q.bt 0 (addPiece S (some p))
      rw [addPiece, render_append, hsep, h.sep, h.params, Nat.zero_add]
    · show (q.params ++ c.vals).length = _
      rw [addPiece, holes_append, hsep, List.length_append, h.params, hv]

/-- **The query after a sequence of calls**, on every dialect. -/
theorem predQuery_eq (bt : BackendType) (m : Model) (hb : ∀ c ∈ calls, c.Bound) :
    predQuery bt m calls = { queryNew bt m with
      where_ := render bt 0 (skeleton calls)
      params := calls.flatMap PredCall.vals } ∧
    holes (skeleton calls) = (calls.flatMap PredCall.vals).length := by
  have hrun : ∀ (cs : List PredCall) (q : Query) (S : List Slot), (∀ c ∈ cs, c.Bound) →
      Skeleton q S → chain q (cs.flatMap PredCall.calls) = { q with
        where_ := render q.bt 0 (cs.foldl (fun S c => addPiece S c.piece) S)
        params := q.params ++ cs.flatMap PredCall.vals } ∧
      holes (cs.foldl (fun S c => addPiece S c.piece) S) =
        (q.params ++ cs.flatMap PredCall.vals).length := by
    intro cs
    induction cs with
    | nil =>
      intro q S _ h
      refine ⟨?_, by simpa using h.params.symm⟩
      rw [List.foldl_nil, ← h.where_]
      simp [chain]
    | cons c cs ih =>
      intro q S hcs h
      have hstep := h.apply (hcs c List.mem_cons_self)
      have hrest := ih _ _ (fun d hd => hcs d (List.mem_cons_of_mem _ hd)) hstep
      rw [List.flatMap_cons, chain, List.foldl_append]
      change chain (chain q c.calls) _ = _ ∧ _
      rw [hrest.1, List.foldl_cons, hrest.2]
      rw [chain_calls]
      simp
  have h := hrun calls (queryNew bt m) [] hb ⟨rfl, rfl⟩
  exact h

/-! ## Slots of sequences -/

/-- The `?` that are numbered at the end stand before the placeholders that have their numbers. -/
def RawFirst (S : List Slot) : Prop := S.Pairwise fun a b => ¬ (a = .given ∧ b = .raw)

theorem skeleton_concat (calls : List PredCall) (c : PredCall) :
    skeleton (calls ++ [c]) = addPiece (skeleton calls) c.piece := by
  rw [skeleton, List.foldl_append]
  rfl

theorem mem_toSlots_raw {w : Text} : Slot.raw ∈ toSlots w ↔ '?' ∈ w := by
  rw [toSlots, List.mem_map]
  constructor
  · rintro ⟨c, hc, hs⟩
    rw [toSlot] at hs
    split_ifs at hs with h
    exact h ▸ hc
  · intro h
    exact ⟨'?', h, rfl⟩

theorem notMem_toSlots_given {w : Text} : Slot.given ∉ toSlots w := by
  intro h
  obtain ⟨c, -, hs⟩ := List.mem_map.mp h
  rw [toSlot] at hs
  split_ifs at hs

theorem notMem_inSlots_raw (i n : ℕ) : Slot.raw ∉ inSlots i n := by
  induction n generalizing i with
  | zero => exact List.not_mem_nil
  | succ n ih =>
    simp [inSlots, mem_toSlots_raw, ih]

theorem mem_piece {p : Text × List Slot} (hp : c.piece = some p) :
    (Slot.raw ∈ p.2 ↔ c.Marks) ∧ (Slot.given ∈ p.2 ↔ c.Numbers) := by
  have hplain {f w : Text} (hf : isValidIdentifier (some f) = true) (hw : '?' ∉ w) :
      Slot.raw ∉ toSlots (f ++ w) := fun h => notMem_ident hf hw (mem_toSlots_raw.mp h)
  cases adds_of_piece hp with
  | where_ condition vals => exact ⟨mem_toSlots_raw, iff_of_false notMem_toSlots_given id⟩
  | orWhere condition vals => exact ⟨mem_toSlots_raw, iff_of_false notMem_toSlots_given id⟩
  | whereNull hf =>
    exact ⟨iff_of_false (hplain hf (by decide)) id, iff_of_false notMem_toSlots_given id⟩
  | whereNotNull hf =>
    exact ⟨iff_of_false (hplain hf (by decide)) id, iff_of_false notMem_toSlots_given id⟩
  | @whereIn f vals hf hne =>
    have hw' : '?' ∉ ")".toList := by decide
    refine ⟨iff_of_false (fun h => ?_) id, iff_of_true ?_ ⟨hf, hne⟩⟩
    · rw [List.mem_append, List.mem_append] at h
      rcases h with (h | h) | h
      · exact hplain hf (by decide) h
      · exact notMem_inSlots_raw _ _ h
      · exact hw' (mem_toSlots_raw.mp h)
    · cases vals with
      | nil => exact absurd rfl hne
      | cons v vals => simp [inSlots]
  | whereBetween minVal maxVal hf =>
    have ha : '?' ∉ " AND ".toList := by decide
    refine ⟨iff_of_false (fun h => ?_) id, iff_of_true (by simp) hf⟩
    simp only [List.mem_append, List.mem_cons, reduceCtorEq, false_or, or_false,
      List.not_mem_nil] at h
    rcases h with h | h
    · exact hplain hf (by decide) h
    · exact ha (mem_toSlots_raw.mp h)

theorem piece_none_kinds (hp : c.piece = none) : ¬ c.Marks ∧ ¬ c.Numbers := by
  cases c with
  | where_ => cases hp
  | orWhere => cases hp
  | whereNull => exact ⟨id, id⟩
  | whereNotNull => exact ⟨id, id⟩
  | whereIn field vals =>
    rw [PredCall.piece] at hp
    split_ifs at hp with hf
    refine ⟨id, fun h => hf ?_⟩
    rw [h.1]
    simpa using h.2
  | whereBetween field minVal maxVal =>
    rw [PredCall.piece] at hp
    split_ifs at hp with hf
    exact ⟨id, hf⟩

theorem not_marks_and_numbers : ¬ (c.Marks ∧ c.Numbers) := by
  rintro ⟨hm, hn⟩
  cases c <;> first | exact hm | exact hn

theorem piece_connective {p : Text × List Slot} (hp : c.piece = some p) :
    p.1 = " AND ".toList ∨ p.1 = " OR ".toList := by
  cases adds_of_piece hp with
  | orWhere => exact Or.inr rfl
  | _ => exact Or.inl rfl

theorem rawFirst_of_notMem_raw (h : Slot.raw ∉ S) : RawFirst S :=
  List.pairwise_of_forall_mem_list fun _ _ _ hb hab => h (hab.2 ▸ hb)

theorem rawFirst_of_notMem_given (h : Slot.given ∉ S) : RawFirst S :=
  List.pairwise_of_forall_mem_list fun _ ha _ _ hab => h (hab.1 ▸ ha)

theorem rawFirst_append : RawFirst (S ++ T) ↔
    RawFirst S ∧ RawFirst T ∧ (Slot.given ∈ S → Slot.raw ∉ T) := by
  unfold RawFirst
  rw [List.pairwise_append]
  refine and_congr_right fun _ => and_congr_right fun _ => ?_
  constructor
  · intro h hg hr
    exact h _ hg _ hr ⟨rfl, rfl⟩
  · rintro h a ha b hb ⟨rfl, rfl⟩
    exact h ha hb

theorem mem_skeleton_given : Slot.given ∈ skeleton calls ↔ ∃ c ∈ calls, c.Numbers := by
  induction calls using List.reverseRecOn with
  | nil => simp [skeleton]
  | append_singleton calls c ih =>
    rw [skeleton_concat]
    cases hp : c.piece with
    | none =>
      rw [addPiece, ih]
      simp [(piece_none_kinds hp).2]
    | some p =>
      have hk : Slot.given ∉ toSlots p.1 := notMem_toSlots_given
      have hsep : Slot.given ∈ (if skeleton calls = [] then [] else
          skeleton calls ++ toSlots p.1) ↔ Slot.given ∈ skeleton calls := by
        split_ifs with hS
        · rw [hS]
        · simp [hk]
      rw [addPiece, List.mem_append, hsep, ih, (mem_piece hp).2]
      simp [or_and_right, exists_or]

/-- The slots of calls have the `?` first when no call with `?` follows one with numbers. -/
theorem rawFirst_skeleton : RawFirst (skeleton calls) ↔
    calls.Pairwise fun c d => c.Numbers → ¬ d.Marks := by
  induction calls using List.reverseRecOn with
  | nil => simp [skeleton, RawFirst]
  | append_singleton calls c ih =>
    rw [skeleton_concat, List.pairwise_append, ← ih]
    cases hp : c.piece with
    | none =>
      rw [addPiece]
      simp [(piece_none_kinds hp).1]
    | some p =>
      obtain ⟨hraw, hgiven⟩ := mem_piece hp
      have hk : Slot.raw ∉ toSlots p.1 := by
        rw [mem_toSlots_raw]
        rcases piece_connective hp with h | h <;> rw [h] <;> decide
      have hsep : RawFirst (if skeleton calls = [] then [] else skeleton calls ++ toSlots p.1) ↔
          RawFirst (skeleton calls) := by
        split_ifs with hS
        · rw [hS]
        · rw [rawFirst_append]
          exact ⟨fun h => h.1, fun h => ⟨h, rawFirst_of_notMem_raw hk, fun _ => hk⟩⟩
      have hmem : Slot.given ∈ (if skeleton calls = [] then [] else
          skeleton calls ++ toSlots p.1) ↔ Slot.given ∈ skeleton calls := by
        have hk' : Slot.given ∉ toSlots p.1 := notMem_toSlots_given
        split_ifs with hS
        · rw [hS]
        · simp [hk']
      have hpiece : RawFirst p.2 := by
        by_cases hm : c.Marks
        · refine rawFirst_of_notMem_given fun h => ?_
          exact not_marks_and_numbers ⟨hm, hgiven.mp h⟩
        · exact rawFirst_of_notMem_raw fun h => hm (hraw.mp h)
      rw [addPiece, rawFirst_append, hsep, hmem, mem_skeleton_given, hraw]
      simp [hpiece]

/-! ## Digits after placeholders -/

/-- No digit follows `$` or `?` in a text. -/
def SeparatedText (w : Text) : Prop :=
  List.IsChain (fun a b => a = '$' ∨ a = '?' → b.isDigit = false) w

/-- The condition of a call is such a text. -/
def PredCall.SeparatedText : PredCall → Prop
  | .where_ condition _ => Corm.SeparatedText condition
  | .orWhere condition _ => Corm.SeparatedText condition
  | _ => True

/-- The last slot does not open a number. -/
def EndsShut (S : List Slot) : Prop := ∀ a ∈ S.getLast?, ¬ a.Opens

theorem separated_append_off (hT : StartsOff T) :
    Separated (S ++ T) ↔ Separated S ∧ Separated T := by
  unfold Separated
  rw [List.isChain_append]
  exact ⟨fun h => ⟨h.1, h.2.1⟩, fun h => ⟨h.1, h.2, fun _ _ b hb _ => hT b hb⟩⟩

theorem separated_append_shut (hS : EndsShut S) :
    Separated (S ++ T) ↔ Separated S ∧ Separated T := by
  unfold Separated
  rw [List.isChain_append]
  exact ⟨fun h => ⟨h.1, h.2.1⟩, fun h => ⟨h.1, h.2, fun a ha _ _ ho => absurd ho (hS a ha)⟩⟩

theorem toSlot_opens {a : Char} : (toSlot a).Opens ↔ a = '$' ∨ a = '?' := by
  unfold toSlot
  split_ifs with h
  · simp [Slot.Opens, h]
  · simp [Slot.Opens, h]

theorem toSlot_digit {b : Char} : (toSlot b).Digit ↔ b.isDigit = true := by
  unfold toSlot
  split_ifs with h
  · subst h
    simp [Slot.Digit, Char.isDigit]
  · exact Iff.rfl

theorem separated_toSlots {w : Text} : Separated (toSlots w) ↔ SeparatedText w := by
  unfold Separated SeparatedText toSlots
  rw [List.isChain_map]
  simp only [toSlot_opens, toSlot_digit, Bool.not_eq_true]

theorem separatedText_plain {w : Text} (hd : '$' ∉ w) (hm : '?' ∉ w) : SeparatedText w := by
  refine List.Pairwise.isChain (List.pairwise_of_forall_mem_list fun a ha b _ ho => ?_)
  rcases ho with rfl | rfl
  · exact absurd ha hd
  · exact absurd ha hm

theorem startsOff_toSlots {c : Char} {w : Text} (hc : c.isDigit = false) (T : List Slot) :
    StartsOff (toSlots (c :: w) ++ T) := by
  intro a ha
  obtain rfl := Option.some.inj ha
  rw [toSlot_digit, hc]
  exact Bool.false_ne_true

theorem endsShut_toSlots {w : Text} {c : Char} (hc : c ≠ '$' ∧ c ≠ '?') (S : List Slot) :
    EndsShut (S ++ toSlots (w ++ [c])) := by
  intro a ha
  rw [toSlots_append, ← List.append_assoc] at ha
  have hlast : (S ++ toSlots w ++ toSlots [c]).getLast? = some (toSlot c) := by
    rw [show toSlots [c] = [toSlot c] from rfl, List.getLast?_concat]
  rw [hlast] at ha
  obtain rfl := Option.some.inj ha
  rw [toSlot_opens, not_or]
  exact hc

theorem separated_inSlots (i n : ℕ) : Separated (inSlots i n) ∧ StartsOff (inSlots i n) := by
  induction n generalizing i with
  | zero => exact ⟨List.IsChain.nil, by simp [StartsOff, inSlots]⟩
  | succ n ih =>
    obtain ⟨hsep, -⟩ := ih (i + 1)
    have hoff : StartsOff (inSlots (i + 1) n) := by
      cases n with
      | zero => simp [StartsOff, inSlots]
      | succ n => exact startsOff_toSlots (c := ',') (w := [' ']) rfl _
    have hgiven : Separated (.given :: inSlots (i + 1) n) := separated_cons.mpr ⟨fun _ => hoff, hsep⟩
    rw [inSlots]
    by_cases hi : 0 < i
    · rw [if_pos hi]
      have hcomma : Separated (toSlots ", ".toList) :=
        separated_toSlots.mpr (separatedText_plain (by decide) (by decide))
      refine ⟨(separated_append_off ?_).mpr ⟨hcomma, hgiven⟩, startsOff_toSlots rfl _⟩
      simp [StartsOff, Slot.Digit]
    · rw [if_neg hi]
      exact ⟨hgiven, by simp [StartsOff, Slot.Digit, toSlots]⟩

theorem ident_separated {f : Text} (hf : isValidIdentifier (some f) = true) {w : Text}
    (hd : '$' ∉ w) (hm : '?' ∉ w) : Separated (toSlots (f ++ w)) := by
  have hfd : '$' ∉ f := Ident.notMem (s := f) hf rfl
  exact separated_toSlots.mpr (separatedText_plain (by simp [hfd, hd]) (notMem_ident hf hm))

/-- The slots of a call are those of its condition, or have no digit after a placeholder. -/
theorem separated_piece {p : Text × List Slot} (hp : c.piece = some p) :
    Separated p.2 ↔ c.SeparatedText := by
  cases adds_of_piece hp with
  | where_ condition vals => exact separated_toSlots
  | orWhere condition vals => exact separated_toSlots
  | whereNull hf => exact iff_of_true (ident_separated hf (by decide) (by decide)) trivial
  | whereNotNull hf => exact iff_of_true (ident_separated hf (by decide) (by decide)) trivial
  | @whereIn f vals hf hne =>
    have hhead := ident_separated hf (w := " IN (".toList) (by decide) (by decide)
    have hclose : Separated (toSlots ")".toList) :=
      separated_toSlots.mpr (separatedText_plain (by decide) (by decide))
    have hshut : EndsShut (toSlots (f ++ " IN (".toList)) := by
      have h := endsShut_toSlots (w := f ++ " IN ".toList) (c := '(') (by decide) []
      rwa [List.append_assoc] at h
    have hoff : StartsOff (toSlots ")".toList) := startsOff_toSlots (c := ')') (w := []) rfl []
    refine iff_of_true ?_ trivial
    refine (separated_append_off hoff).mpr ⟨?_, hclose⟩
    exact (separated_append_shut hshut).mpr ⟨hhead, (separated_inSlots 0 _).1⟩
  | @whereBetween f minVal maxVal hf =>
    have hhead := ident_separated hf (w := " BETWEEN ".toList) (by decide) (by decide)
    have hshut : EndsShut (toSlots (f ++ " BETWEEN ".toList)) := by
      have h := endsShut_toSlots (w := f ++ " BETWEEN".toList) (c := ' ') (by decide) []
      rwa [List.append_assoc] at h
    have hand : Separated (toSlots " AND ".toList) :=
      separated_toSlots.mpr (separatedText_plain (by decide) (by decide))
    have hoff : StartsOff (toSlots " AND ".toList) :=
      startsOff_toSlots (c := ' ') (w := "AND ".toList) rfl []
    have hlast : Separated [Slot.given] ∧ StartsOff [Slot.given] :=
      ⟨separated_cons.mpr ⟨fun _ => by simp [StartsOff], List.IsChain.nil⟩,
        by simp [StartsOff, Slot.Digit]⟩
    refine iff_of_true ?_ trivial
    refine (separated_append_off hlast.2).mpr ⟨?_, hlast.1⟩
    exact (separated_append_shut hshut).mpr ⟨hhead, separated_cons.mpr ⟨fun _ => hoff, hand⟩⟩

theorem separated_skeleton :
    Separated (skeleton calls) ↔ ∀ c ∈ calls, c.SeparatedText := by
  induction calls using List.reverseRecOn with
  | nil => simp [skeleton, Separated]
  | append_singleton calls c ih =>
    rw [skeleton_concat, List.forall_mem_append, ← ih, List.forall_mem_singleton]
    cases hp : c.piece with
    | none =>
      have hc : c.SeparatedText := by
        cases c with
        | where_ => cases hp
        | orWhere => cases hp
        | _ => trivial
      rw [addPiece]
      simp [hc]
    | some p =>
      rw [addPiece, ← separated_piece hp]
      split_ifs with hS
      · rw [hS, List.nil_append]
        exact ⟨fun h => ⟨List.IsChain.nil, h⟩, fun h => h.2⟩
      · have hk : ∃ k, p.1 = ' ' :: (k ++ [' ']) ∧ '$' ∉ p.1 ∧ '?' ∉ p.1 := by
          rcases piece_connective hp with h | h
          · exact ⟨"AND".toList, h, by rw [h]; decide, by rw [h]; decide⟩
          · exact ⟨"OR".toList, h, by rw [h]; decide, by rw [h]; decide⟩
        obtain ⟨k, hk, hd, hm⟩ := hk
        have hsep := separated_toSlots.mpr (separatedText_plain hd hm)
        have hshut : EndsShut (skeleton calls ++ toSlots p.1) := by
          rw [hk, ← List.cons_append]
          exact endsShut_toSlots (by decide) _
        have hoff : StartsOff (toSlots p.1) := by
          have h := startsOff_toSlots (c := ' ') (w := k ++ [' ']) rfl []
          rwa [List.append_nil, ← hk] at h
        rw [separated_append_shut hshut, separated_append_off hoff]
        exact ⟨fun h => ⟨h.1.1, h.2⟩, fun h => ⟨⟨h.1, hsep⟩, h.2⟩⟩

end Corm
