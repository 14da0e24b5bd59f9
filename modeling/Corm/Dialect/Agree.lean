import Corm.Dialect.Predicates

/-!
# Predicates on two dialects

The statement that PostgreSQL is given for a chain of conditions, and the one SQLite is given.

* `statementSlots`, `buildSql_lite`, `buildSql_pg`: the slots of the statement, and its text on both;
* `Agree`: both say the same once their placeholders are replaced, and PostgreSQL uses each
  parameter once;
* **`dialects_agree_iff`**: when they agree.
-/

namespace Corm

variable {m : Model} {calls : List PredCall} {S : List Slot} {n k : ℕ} {op : QueryOp}

/-- The statements built from the same calls, with the placeholders of each replaced by their
parameters, are one text; and PostgreSQL has each placeholder once. -/
def Agree (op : QueryOp) (m : Model) (calls : List PredCall) : Prop :=
  let pg := queryOp (predQuery .postgres m calls) op
  let lite := queryOp (predQuery .sqlite m calls) op
  (∃ text, (numbered (buildSql pg)).mapM (put pg.params) = some text ∧
    (marked 0 (buildSql lite)).mapM (put lite.params) = some text) ∧
  ∀ k, 1 ≤ k → k ≤ pg.params.length → (numbered (buildSql pg)).count (.hole k) = 1

/-! ## The statement -/

/-- The beginning of a statement. -/
def verb : QueryOp → Text
  | .select => "SELECT * FROM ".toList
  | _ => "DELETE FROM ".toList

/-- The statement up to its WHERE; the quotes are those of PostgreSQL too. -/
def statementHead (op : QueryOp) (m : Model) : Text := verb op ++ qident .sqlite m.table

/-- The slots of a statement. -/
def statementSlots (op : QueryOp) (m : Model) (S : List Slot) : List Slot :=
  toSlots (statementHead op m) ++ if S = [] then [] else toSlots " WHERE ".toList ++ S

theorem buildSql_eq (hop : op = .select ∨ op = .delete) {bt : BackendType} (hbt : bt ≠ .mysql)
    (hb : ∀ c ∈ calls, c.Bound) : buildSql (queryOp (predQuery bt m calls) op) =
      statementHead op m ++ if skeleton calls = [] then [] else " WHERE ".toList ++
        appendWithPlaceholders bt 0 (render bt 0 (skeleton calls)) := by
  obtain ⟨hq, -⟩ := predQuery_eq bt m hb
  have hquote : qident bt m.table = qident .sqlite m.table := by
    cases bt with
    | mysql => exact absurd rfl hbt
    | _ => rfl
  have hwhere : whereText (queryOp (predQuery bt m calls) op) 0 =
      if skeleton calls = [] then [] else " WHERE ".toList ++
        appendWithPlaceholders bt 0 (render bt 0 (skeleton calls)) := by
    rw [hq]
    show (if render bt 0 (skeleton calls) = [] then [] else _) = _
    simp only [render_eq_nil_iff]
    rfl
  have hmodel : (queryOp (predQuery bt m calls) op).model = m ∧
      (queryOp (predQuery bt m calls) op).bt = bt := by
    rw [hq]
    exact ⟨rfl, rfl⟩
  rcases hop with rfl | rfl
  · have hp : PlainSelect (queryOp (predQuery bt m calls) .select) := by
      rw [hq]
      exact ⟨rfl, rfl, rfl, rfl, rfl, rfl, rfl, rfl⟩
    show buildSelect _ = _
    rw [buildSelect_eq hp, hwhere, hmodel.1, hmodel.2, hquote]
    rfl
  · show "DELETE FROM ".toList ++ _ ++ _ = _
    rw [hwhere, hmodel.1, hmodel.2, hquote]
    rfl

theorem render_mark (k n : ℕ) (S : List Slot) : render .sqlite k S = render .sqlite n S := by
  induction S generalizing k n with
  | nil => rfl
  | cons a S ih =>
    cases a with
    | char c h => exact congrArg (c :: ·) (ih k n)
    | raw => exact congrArg ('?' :: ·) (ih (k + 1) (n + 1))
    | given => exact congrArg ('?' :: ·) (ih (k + 1) (n + 1))

theorem buildSql_lite (hop : op = .select ∨ op = .delete) (hb : ∀ c ∈ calls, c.Bound) :
    buildSql (queryOp (predQuery .sqlite m calls) op) =
      render .sqlite 0 (statementSlots op m (skeleton calls)) := by
  rw [buildSql_eq hop (by decide) hb, statementSlots, render_append, render_toSlots]
  split_ifs with hS
  · rfl
  · rw [appendWithPlaceholders_id (by simp), render_append, render_toSlots]
    rw [render_mark 0 _ (skeleton calls)]

theorem rewritten_plain {w : Text} (hw : '?' ∉ w) (r n : ℕ) (S : List Slot) :
    rewritten r n (toSlots w ++ S) = w ++ rewritten r n S := by
  induction w with
  | nil => rfl
  | cons c w ih =>
    obtain ⟨hc, hw'⟩ := not_or.mp (mt List.mem_cons.mpr hw)
    have hs : toSlots (c :: w) = .char c (Ne.symm hc) :: toSlots w := by
      simp [toSlots, toSlot, Ne.symm hc]
    rw [hs, List.cons_append, rewritten, ih hw']
    rfl

theorem buildSql_pg (hop : op = .select ∨ op = .delete) (hb : ∀ c ∈ calls, c.Bound)
    (hhead : '?' ∉ statementHead op m) :
    buildSql (queryOp (predQuery .postgres m calls) op) =
      rewritten 0 0 (statementSlots op m (skeleton calls)) := by
  have hw : '?' ∉ " WHERE ".toList := by decide
  rw [buildSql_eq hop (by decide) hb, statementSlots, rewritten_plain hhead,
    appendWithPlaceholders_render]
  split_ifs with hS
  · rfl
  · rw [rewritten_plain hw]

/-! ## Holes -/

theorem places_length (n : ℕ) (S : List Slot) : (places n S).length = S.length := by
  induction S generalizing n with
  | nil => rfl
  | cons a S ih => cases a <;> simp [places, ih]

theorem mapM_places {V : Type} {vals : List V} (h : n + holes S ≤ vals.length) :
    ∃ text, (places n S).mapM (put vals) = some text := by
  induction S generalizing n with
  | nil => exact ⟨[], rfl⟩
  | cons a S ih =>
    have hhole (hn : n + 1 + holes S ≤ vals.length) :
        ∃ text, (.hole (n + 1) :: places (n + 1) S).mapM (put vals) = some text := by
      obtain ⟨text, htext⟩ := ih hn
      have hlt : n < vals.length := by omega
      refine ⟨.hole vals[n] :: text, ?_⟩
      rw [List.mapM_cons, htext, put, List.getElem?_eq_getElem hlt]
      rfl
    cases a with
    | char c hc =>
      obtain ⟨text, htext⟩ := ih (n := n) h
      refine ⟨.char c :: text, ?_⟩
      rw [places, List.mapM_cons, htext]
      rfl
    | raw => exact hhole (by rw [holes] at h; omega)
    | given => exact hhole (by rw [holes] at h; omega)

theorem holes_le_of_mapM {V : Type} {vals : List V} {text : List (Chunk V)}
    (h : (places n S).mapM (put vals) = some text) (hn : n ≤ vals.length) :
    n + holes S ≤ vals.length := by
  induction S generalizing n text with
  | nil => exact hn
  | cons a S ih =>
    have hhole (hh : (.hole (n + 1) :: places (n + 1) S).mapM (put vals) = some text) :
        n + 1 + holes S ≤ vals.length := by
      rw [List.mapM_cons] at hh
      obtain ⟨x, hx, hh⟩ := Option.bind_eq_some_iff.mp hh
      obtain ⟨rest, hrest, -⟩ := Option.bind_eq_some_iff.mp hh
      obtain ⟨v, hv, -⟩ := Option.map_eq_some_iff.mp hx
      have hlt : n < vals.length := (List.getElem?_eq_some_iff.mp hv).1
      exact ih hrest hlt
    cases a with
    | char c hc =>
      rw [places, List.mapM_cons] at h
      obtain ⟨x, -, h⟩ := Option.bind_eq_some_iff.mp h
      obtain ⟨rest, hrest, -⟩ := Option.bind_eq_some_iff.mp h
      exact ih hrest hn
    | raw =>
      have := hhole h
      rw [holes]
      omega
    | given =>
      have := hhole h
      rw [holes]
      omega

theorem count_places (hk : n < k) (hk' : k ≤ n + holes S) :
    (places n S).count (.hole k) = 1 := by
  have hzero : ∀ (n : ℕ) (S : List Slot), k ≤ n → (places n S).count (.hole k) = 0 := by
    intro n S
    induction S generalizing n with
    | nil => exact fun _ => rfl
    | cons a S ih =>
      intro hle
      cases a with
      | char c hc =>
        rw [places, List.count_cons_of_ne (by simp), ih n hle]
      | raw =>
        rw [places, List.count_cons_of_ne (by simp; omega), ih (n + 1) (by omega)]
      | given =>
        rw [places, List.count_cons_of_ne (by simp; omega), ih (n + 1) (by omega)]
  induction S generalizing n with
  | nil =>
    rw [holes] at hk'
    omega
  | cons a S ih =>
    have hhole (hle : k ≤ n + 1 + holes S) :
        ((.hole (n + 1) : Chunk ℕ) :: places (n + 1) S).count (.hole k) = 1 := by
      by_cases heq : k = n + 1
      · subst heq
        rw [List.count_cons_self, hzero _ _ (Nat.le_refl _)]
      · rw [List.count_cons_of_ne (by simp; omega)]
        exact ih (by omega) hle
    cases a with
    | char c hc =>
      rw [places, List.count_cons_of_ne (by simp)]
      exact ih hk hk'
    | raw => exact hhole (by rw [holes] at hk'; omega)
    | given => exact hhole (by rw [holes] at hk'; omega)

/-! ## Two ways of numbering -/

theorem numbers_of_notMem_raw (h : Slot.raw ∉ S) (r n : ℕ) : numbers r n S = places n S := by
  induction S generalizing n with
  | nil => rfl
  | cons a S ih =>
    obtain ⟨ha, hS⟩ := not_or.mp (mt List.mem_cons.mpr h)
    cases a with
    | char c hc => rw [numbers, places, ih hS]
    | raw => exact absurd rfl ha
    | given => rw [numbers, places, ih hS]

theorem numbers_rawFirst (h : RawFirst S) (n : ℕ) : numbers n n S = places n S := by
  induction S generalizing n with
  | nil => rfl
  | cons a S ih =>
    obtain ⟨ha, hS⟩ := List.pairwise_cons.mp h
    cases a with
    | char c hc => rw [numbers, places, ih hS]
    | raw => rw [numbers, places, ih hS]
    | given =>
      rw [numbers, places, numbers_of_notMem_raw fun hr => ha _ hr ⟨rfl, rfl⟩]

theorem mem_numbers_raw (h : Slot.raw ∈ S) (r n : ℕ) : .hole (r + 1) ∈ numbers r n S := by
  induction S generalizing n with
  | nil => cases h
  | cons a S ih =>
    cases a with
    | char c hc =>
      rcases List.mem_cons.mp h with h | h
      · cases h
      · exact List.mem_cons_of_mem _ (ih h n)
    | raw => exact List.mem_cons_self
    | given =>
      rcases List.mem_cons.mp h with h | h
      · cases h
      · exact List.mem_cons_of_mem _ (ih h (n + 1))

/-- **A number is used twice** when a `?` follows a placeholder that has its number. -/
theorem rawFirst_of_count (h : ∀ k, n < k → k ≤ n + holes S →
    (numbers n n S).count (.hole k) = 1) : RawFirst S := by
  induction S generalizing n with
  | nil => exact List.Pairwise.nil
  | cons a S ih =>
    cases a with
    | char c hc =>
      refine List.pairwise_cons.mpr ⟨fun b _ hb => absurd hb.1 (by simp), ih (n := n) fun k hk hk' => ?_⟩
      have hcount := h k hk hk'
      rwa [numbers, List.count_cons_of_ne (by simp)] at hcount
    | raw =>
      refine List.pairwise_cons.mpr ⟨fun b _ hb => absurd hb.1 (by simp),
        ih (n := n + 1) fun k hk hk' => ?_⟩
      have hcount := h k (by omega) (by rw [holes]; omega)
      rwa [numbers, List.count_cons_of_ne (by simp; omega)] at hcount
    | given =>
      have hraw : Slot.raw ∉ S := by
        intro hr
        have hcount := h (n + 1) (by omega) (by rw [holes]; omega)
        rw [numbers, List.count_cons_self] at hcount
        have hpos := List.count_pos_iff.mpr (mem_numbers_raw hr n (n + 1))
        omega
      exact List.pairwise_cons.mpr ⟨fun b hb hab => hraw (hab.2 ▸ hb), rawFirst_of_notMem_raw hraw⟩

/-! ## When they agree -/

theorem verb_plain (op : QueryOp) : '$' ∉ verb op ∧ '?' ∉ verb op := by
  cases op <;> decide +kernel

theorem separated_statement (op : QueryOp) (m : Model) (S : List Slot) :
    Separated (statementSlots op m S) ↔ SeparatedText m.table ∧ Separated S := by
  have hop : SeparatedText (statementHead op m) ↔ SeparatedText m.table := by
    have hverb : SeparatedText (verb op ++ ['"']) := by
      obtain ⟨hd, hm⟩ := verb_plain op
      exact separatedText_plain (by simp [hd]) (by simp [hm])
    have hquote : SeparatedText ['"'] := separatedText_plain (by decide) (by decide)
    have hshut : EndsShut (toSlots (verb op ++ ['"'])) := endsShut_toSlots (by decide) []
    have hoff : StartsOff (toSlots ['"']) := startsOff_toSlots (c := '"') (w := []) rfl []
    have hshape : statementHead op m = verb op ++ ['"'] ++ (m.table ++ ['"']) := by
      simp [statementHead, qident, dialectQuote]
    rw [hshape, ← separated_toSlots, toSlots_append, separated_append_shut hshut,
      toSlots_append m.table, separated_append_off hoff, separated_toSlots, separated_toSlots,
      separated_toSlots]
    exact ⟨fun h => h.2.1, fun h => ⟨hverb, h, hquote⟩⟩
  have hwhere : Separated (toSlots " WHERE ".toList) :=
    separated_toSlots.mpr (separatedText_plain (by decide) (by decide))
  have hoff (T : List Slot) : StartsOff (toSlots " WHERE ".toList ++ T) :=
    startsOff_toSlots (c := ' ') (w := "WHERE ".toList) rfl T
  have hshut : EndsShut (toSlots " WHERE ".toList) :=
    endsShut_toSlots (w := " WHERE".toList) (c := ' ') (by decide) []
  rw [statementSlots, ← hop]
  split_ifs with hS
  · rw [List.append_nil, separated_toSlots, hS]
    exact ⟨fun h => ⟨h, List.IsChain.nil⟩, fun h => h.1⟩
  · rw [separated_append_off (hoff S), separated_append_shut hshut, separated_toSlots]
    exact ⟨fun h => ⟨h.1, h.2.2⟩, fun h => ⟨h.1, hwhere, h.2⟩⟩

theorem rawFirst_statement {m : Model} (hhead : '?' ∉ statementHead op m) (S : List Slot) :
    RawFirst (statementSlots op m S) ↔ RawFirst S := by
  have hw : '?' ∉ " WHERE ".toList := by decide
  have hplain {w : Text} (h : '?' ∉ w) : RawFirst (toSlots w) :=
    rawFirst_of_notMem_raw (mt mem_toSlots_raw.mp h)
  have hgiven (w : Text) : Slot.given ∉ toSlots w := notMem_toSlots_given
  rw [statementSlots, rawFirst_append]
  split_ifs with hS
  · rw [hS]
    exact ⟨fun h => h.2.1, fun h => ⟨hplain hhead, h, fun _ => List.not_mem_nil⟩⟩
  · rw [rawFirst_append]
    exact ⟨fun h => h.2.1.2.1, fun h => ⟨hplain hhead, ⟨hplain hw, h, fun hg => absurd hg (hgiven _)⟩,
      fun hg => absurd hg (hgiven _)⟩⟩

theorem holes_statement (op : QueryOp) (m : Model) (S : List Slot) :
    holes (statementSlots op m S) = (statementHead op m).count '?' + holes S := by
  have hw : '?' ∉ " WHERE ".toList := by decide
  rw [statementSlots, holes_append, holes_toSlots]
  split_ifs with hS
  · rw [hS]
  · rw [holes_append, holes_plain hw, Nat.zero_add]

theorem mem_statementHead : '?' ∈ statementHead op m ↔ '?' ∈ m.table := by
  have hverb := (verb_plain op).2
  simp [statementHead, qident, dialectQuote, hverb]

theorem mapM_length {α β : Type} {f : α → Option β} {l : List α} {r : List β}
    (h : l.mapM f = some r) : r.length = l.length := by
  have := congrArg List.length (Sql.mapM_eq_some_iff.mp h)
  simpa using this.symm

/-- **When PostgreSQL and SQLite agree**: when no condition with `?` comes after an IN or a BETWEEN
that wrote its placeholders with numbers, and no digit follows a `?` or a `$` in the conditions; the
name of the table must not look like a placeholder either. -/
theorem dialects_agree_iff (hop : op = .select ∨ op = .delete) (hb : ∀ c ∈ calls, c.Bound) :
    Agree op m calls ↔
      (calls.Pairwise fun c d => c.Numbers → ¬ d.Marks) ∧
      (∀ c ∈ calls, c.SeparatedText) ∧ '?' ∉ m.table ∧ SeparatedText m.table := by
  obtain ⟨hpg, hholes⟩ := predQuery_eq .postgres m hb
  obtain ⟨hlite, -⟩ := predQuery_eq .sqlite m hb
  have hparams : (queryOp (predQuery .postgres m calls) op).params =
      calls.flatMap PredCall.vals := by
    rw [hpg]
    rfl
  have hparams' : (queryOp (predQuery .sqlite m calls) op).params =
      calls.flatMap PredCall.vals := by
    rw [hlite]
    rfl
  have hsum := holes_statement op m (skeleton calls)
  unfold Agree
  simp only
  rw [hparams, hparams', buildSql_lite hop hb, marked_render (by decide), ← rawFirst_skeleton,
    ← separated_skeleton, ← hholes]
  constructor
  · rintro ⟨⟨text, hnum, hmark⟩, hcount⟩
    have hle := holes_le_of_mapM hmark (Nat.zero_le _)
    have hzero : (statementHead op m).count '?' = 0 := by omega
    have hhead : '?' ∉ statementHead op m := List.count_eq_zero.mp hzero
    rw [buildSql_pg hop hb hhead] at hnum hcount
    have hsep : Separated (statementSlots op m (skeleton calls)) := by
      rw [← numbered_length_iff 0 0, ← mapM_length hnum, mapM_length hmark, places_length]
    rw [numbered, numbered_rewritten hsep (by simp)] at hcount
    have hraw : RawFirst (statementSlots op m (skeleton calls)) :=
      rawFirst_of_count (n := 0) fun k hk hk' => hcount k hk (by omega)
    exact ⟨(rawFirst_statement hhead _).mp hraw, ((separated_statement op m _).mp hsep).2,
      mt mem_statementHead.mpr hhead, ((separated_statement op m _).mp hsep).1⟩
  · rintro ⟨hraw, hsep, htable, hname⟩
    have hhead : '?' ∉ statementHead op m := mt mem_statementHead.mp htable
    have hzero : (statementHead op m).count '?' = 0 := List.count_eq_zero.mpr hhead
    have hsep' := (separated_statement op m _).mpr ⟨hname, hsep⟩
    have hraw' := (rawFirst_statement hhead _).mpr hraw
    rw [buildSql_pg hop hb hhead, numbered, numbered_rewritten hsep' (by simp),
      numbers_rawFirst hraw']
    have hroom : 0 + holes (statementSlots op m (skeleton calls)) ≤
        (calls.flatMap PredCall.vals).length := by omega
    obtain ⟨text, htext⟩ := mapM_places hroom
    refine ⟨⟨text, htext, htext⟩, fun k hk hk' => ?_⟩
    exact count_places (n := 0) hk (by omega)

/-! ## An IN before a comparison -/

/-- `id IN (1)` and `age > 30`. -/
def inThenAbove : List PredCall :=
  [.whereIn (some "id".toList) [⟨.int, false, .i 1⟩], .where_ "age > ?".toList [⟨.int, false, .i 30⟩]]

theorem inThenAbove_bound : ∀ c ∈ inThenAbove, c.Bound := by
  simp [inThenAbove, PredCall.Bound]

/-- The model that the calls are about. -/
def personModel : Model where
  tableName := some "people".toList
  structSize := 8
  fields := [⟨some "id".toList, .int, 4, 1⟩, ⟨some "age".toList, .int, 4, 0⟩]
  primaryKey := none
  primaryKey_mem := by simp
  beforeCreate := none
  afterCreate := none
  beforeUpdate := none
  afterUpdate := none
  beforeDelete := none
  afterDelete := none
  afterFind := none

/-- PostgreSQL compares both columns with the first value. -/
theorem inThenAbove_reuses :
    validateModel personModel = .ok ∧ (∀ c ∈ inThenAbove, c.Bound) ∧
      ¬ Agree .select personModel inThenAbove := by
  refine ⟨by decide +kernel, inThenAbove_bound, fun h => ?_⟩
  have htext : buildSql (queryOp (predQuery .postgres personModel inThenAbove) .select) =
      "SELECT * FROM \"people\" WHERE id IN ($1) AND age > $1".toList := by decide +kernel
  have hlen : (queryOp (predQuery .postgres personModel inThenAbove) .select).params.length = 2 := by
    decide +kernel
  have hcount := h.2 1 (by decide) (by rw [hlen]; decide)
  rw [htext] at hcount
  revert hcount
  decide +kernel

theorem dialects_agree_iff_inThenAbove :
    Agree .select personModel inThenAbove ↔
      (inThenAbove.Pairwise fun c d => c.Numbers → ¬ d.Marks) ∧
      (∀ c ∈ inThenAbove, c.SeparatedText) ∧ '?' ∉ personModel.table ∧
      SeparatedText personModel.table :=
  dialects_agree_iff (Or.inl rfl) inThenAbove_bound

end Corm
