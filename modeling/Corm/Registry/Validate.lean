import Corm.Reading.Basic
import Mathlib.Data.List.Duplicate

/-!
# What validation accepts

`corm_validate_model` on any pointer, with the calls of `strcmp` that its two loops make.

* `Descriptor`: `corm_model_t` with any `field_count` and with pointers that may be null;
* `checkModel`: `corm_validate_model`, and the pairs of names that it compares;
* `checkModel_model`: on a `Model` it returns what `validateModel` does;
* `IsName`, `Descriptor.WellFormed`, `checkModel_ok_iff`: the models that are accepted;
* **`validation_exact`**: these and no others are accepted, the two other results have the reasons
  that they name, and no null name is compared.
-/

namespace Corm

/-- `corm_model_t` as validation reads it: the array of descriptors, if there is one, has the
`fieldCount` elements that the count promises. -/
structure Descriptor where
  tableName : Option Text
  structSize : ℕ
  fieldCount : ℤ
  fields : Option (List Field)
  room : ∀ fs ∈ fields, fieldCount ≤ fs.length

/-- The fields that the loops go through. -/
def Descriptor.scanned (d : Descriptor) : List Field := (d.fields.getD []).take d.fieldCount.toNat

/-- The two names of a call of `strcmp`. -/
abbrev Comparison := Option Text × Option Text

/-- The loop over `j`: whether a later field has the name of `f1`, and the names it compares. -/
def scanLater (f1 : Field) : List Field → Bool × List Comparison
  | [] => (false, [])
  | f2 :: rest =>
    if f2.name.isSome then
      if f2.name == f1.name then (true, [(f1.name, f2.name)])
      else
        let (dup, log) := scanLater f1 rest
        (dup, (f1.name, f2.name) :: log)
    else scanLater f1 rest

/-- The loop over `i`. -/
def scanFields : List Field → Err × List Comparison
  | [] => (.ok, [])
  | f1 :: rest =>
    if f1.name.isNone || !isValidIdentifier f1.name then (.type, [])
    else
      let (dup, log) := scanLater f1 rest
      if dup then (.dup, log)
      else
        let (err, log') := scanFields rest
        (err, log ++ log')

/-- `corm_validate_model`. -/
def checkModel : Option Descriptor → Err × List Comparison
  | none => (.null, [])
  | some d =>
    if d.tableName.isNone || decide (d.fieldCount ≤ 0) || d.fields.isNone then (.null, [])
    else if !isValidIdentifier d.tableName then (.type, [])
    else if d.structSize = 0 then (.bounds, [])
    else scanFields d.scanned

/-- A model as a descriptor. -/
def Model.descriptor (m : Model) : Descriptor :=
  ⟨m.tableName, m.structSize, m.fields.length, some m.fields, fun _ h => by
    cases h
    exact Int.le_refl _⟩

/-! ## The two loops -/

variable {f1 : Field} {fs : List Field} {name : Option Text}

theorem scanFields_cons (f1 : Field) (fs : List Field) : scanFields (f1 :: fs) =
    if f1.name.isNone || !isValidIdentifier f1.name then (.type, [])
    else if (scanLater f1 fs).1 then (.dup, (scanLater f1 fs).2)
    else ((scanFields fs).1, (scanLater f1 fs).2 ++ (scanFields fs).2) := rfl

theorem scanLater_dup (f1 : Field) (fs : List Field) :
    (scanLater f1 fs).1 = fs.any fun f2 => f2.name.isSome && f2.name == f1.name := by
  induction fs with
  | nil => rfl
  | cons f2 fs ih =>
    rw [scanLater, List.any_cons, ← ih]
    split_ifs with hsome heq
    · simp [hsome, heq]
    · simp [heq]
    · simp [hsome]

theorem scanLater_compares (h : f1.name.isSome) :
    ∀ c ∈ (scanLater f1 fs).2, c.1.isSome ∧ c.2.isSome := by
  induction fs with
  | nil => simp [scanLater]
  | cons f2 fs ih =>
    rw [scanLater]
    split_ifs with hsome heq
    · simpa using ⟨h, hsome⟩
    · rintro c hc
      rcases List.mem_cons.mp hc with rfl | hc
      · exact ⟨h, hsome⟩
      · exact ih c hc
    · exact ih

theorem isSome_of_valid (h : isValidIdentifier name = true) : name.isSome := by
  cases name with
  | none => cases h
  | some s => rfl

theorem scanFields_err (fs : List Field) : (scanFields fs).1 = validateFields fs := by
  induction fs with
  | nil => rfl
  | cons f1 fs ih =>
    have hnone : (f1.name.isNone || !isValidIdentifier f1.name) = !isValidIdentifier f1.name := by
      cases f1.name <;> simp [isValidIdentifier]
    rw [scanFields_cons, validateFields, hnone, ← scanLater_dup, ← ih]
    split_ifs <;> rfl

theorem scanFields_compares (fs : List Field) :
    ∀ c ∈ (scanFields fs).2, c.1.isSome ∧ c.2.isSome := by
  induction fs with
  | nil => simp [scanFields]
  | cons f1 fs ih =>
    rw [scanFields_cons]
    split_ifs with hbad hdup
    · simp
    all_goals
      have hvalid : isValidIdentifier f1.name = true := by
        simpa using (Bool.or_eq_false_iff.mp (Bool.eq_false_iff.mpr hbad)).2
      have hlog : ∀ c ∈ (scanLater f1 fs).2, c.1.isSome ∧ c.2.isSome :=
        scanLater_compares (isSome_of_valid hvalid)
    · exact hlog
    · rintro c hc
      rcases List.mem_append.mp hc with hc | hc
      · exact hlog c hc
      · exact ih c hc

/-- **On a model** the check returns what `validateModel` does. -/
theorem checkModel_model (m : Model) : (checkModel (some m.descriptor)).1 = validateModel m := by
  have hscan : m.descriptor.scanned = m.fields := by
    rw [Descriptor.scanned, Model.descriptor, Option.getD_some, Int.toNat_natCast, List.take_length]
  have hnull : (m.descriptor.tableName.isNone || decide (m.descriptor.fieldCount ≤ 0) ||
      m.descriptor.fields.isNone) = (m.tableName.isNone || m.fields.isEmpty) := by
    have hempty : decide ((m.fields.length : ℤ) ≤ 0) = m.fields.isEmpty := by
      cases m.fields <;> simp
    rw [← hempty]
    exact Bool.or_false _
  unfold checkModel validateModel
  simp only [hnull, hscan, ← scanFields_err, apply_ite Prod.fst]
  rfl

/-! ## Names -/

/-- A name that is not missing, not empty and over `[A-Za-z0-9_.*]`. -/
def IsName (name : Option Text) : Prop :=
  ∃ s, name = some s ∧ s ≠ [] ∧ ∀ c ∈ s, c.isAlphanum = true ∨ c = '_' ∨ c = '.' ∨ c = '*'

theorem isIdentChar_iff (c : Char) :
    isIdentChar c = true ↔ c.isAlphanum = true ∨ c = '_' ∨ c = '.' ∨ c = '*' := by
  have hword : Sql.isWordChar c = true ↔ c.isAlphanum = true ∨ c = '_' ∨ c = '.' ∨ c = '*' := by
    simp [Sql.isWordChar, or_assoc]
  rw [← hword, isWordChar_eq]

theorem isValidIdentifier_iff : isValidIdentifier name = true ↔ IsName name := by
  cases name with
  | none => simp [isValidIdentifier, IsName]
  | some s => simp [isValidIdentifier, IsName, isIdentChar_iff]

theorem not_isName (hid : (!isValidIdentifier name) = true) : ¬ IsName name := by
  rw [← isValidIdentifier_iff]
  simpa using hid

/-! ## The result of the loops -/

theorem mem_names_iff (s : Option Text) (fs : List Field) :
    fs.any (fun g => g.name.isSome && g.name == s) = true ↔
      s.isSome ∧ s ∈ fs.map Field.name := by
  simp only [List.any_eq_true, Bool.and_eq_true, beq_iff_eq, List.mem_map]
  constructor
  · rintro ⟨g, hg, hsome, rfl⟩
    exact ⟨hsome, g, hg, rfl⟩
  · rintro ⟨hsome, g, hg, rfl⟩
    exact ⟨g, hg, hsome, rfl⟩

/-- **The loops succeed** exactly when the names are valid and distinct. -/
theorem validateFields_ok_iff (fs : List Field) : validateFields fs = .ok ↔
    (∀ f ∈ fs, IsName f.name) ∧ (fs.map Field.name).Nodup := by
  induction fs with
  | nil => simp [validateFields]
  | cons f fs ih =>
    rw [validateFields, List.map_cons, List.nodup_cons, List.forall_mem_cons]
    split_ifs with hid hdup
    · exact iff_of_false nofun fun h => not_isName hid h.1.1
    · have hmem := ((mem_names_iff f.name fs).mp hdup).2
      exact iff_of_false nofun fun h => h.2.1 hmem
    · have hvalid : isValidIdentifier f.name = true := by simpa using hid
      have hnot : f.name ∉ fs.map Field.name := fun hm =>
        hdup ((mem_names_iff f.name fs).mpr ⟨isSome_of_valid hvalid, hm⟩)
      rw [ih]
      constructor
      · exact fun h => ⟨⟨isValidIdentifier_iff.mp hvalid, h.1⟩, hnot, h.2⟩
      · exact fun h => ⟨h.1.2, h.2.2⟩

theorem validateFields_dup (h : validateFields fs = .dup) :
    ∃ s, List.Duplicate (some s) (fs.map Field.name) := by
  induction fs with
  | nil => cases h
  | cons f fs ih =>
    rw [validateFields] at h
    split_ifs at h with hid hdup
    · obtain ⟨hsome, hmem⟩ := (mem_names_iff f.name fs).mp hdup
      obtain ⟨s, hs⟩ := Option.isSome_iff_exists.mp hsome
      refine ⟨s, ?_⟩
      rw [List.map_cons, hs]
      exact (hs ▸ hmem).duplicate_cons_self
    · obtain ⟨s, hs⟩ := ih h
      exact ⟨s, hs.duplicate_cons _⟩

theorem validateFields_type (h : validateFields fs = .type) : ∃ f ∈ fs, ¬ IsName f.name := by
  induction fs with
  | nil => cases h
  | cons f fs ih =>
    rw [validateFields] at h
    split_ifs at h with hid hdup
    · exact ⟨f, List.mem_cons_self, not_isName hid⟩
    · obtain ⟨g, hg, hbad⟩ := ih h
      exact ⟨g, List.mem_cons_of_mem _ hg, hbad⟩

/-! ## Well-formed models -/

/-- The models that validation is for. -/
structure Descriptor.WellFormed (d : Descriptor) : Prop where
  table : IsName d.tableName
  size : d.structSize ≠ 0
  count : 0 < d.fieldCount
  array : d.fields.isSome
  names : ∀ f ∈ d.scanned, IsName f.name
  nodup : (d.scanned.map Field.name).Nodup

/-- **Validation accepts the well-formed models** and no others. -/
theorem checkModel_ok_iff (d : Descriptor) : (checkModel (some d)).1 = .ok ↔ d.WellFormed := by
  rw [checkModel]
  split_ifs with hnull hid hsize
  · refine iff_of_false nofun fun h => ?_
    have htable := isSome_of_valid (isValidIdentifier_iff.mpr h.table)
    have harray := h.array
    have hcount := h.count
    simp only [Bool.or_eq_true, decide_eq_true_eq, Option.isNone_iff_eq_none] at hnull
    rcases hnull with (hnone | hle) | hnone
    · rw [hnone] at htable
      cases htable
    · omega
    · rw [hnone] at harray
      cases harray
  · exact iff_of_false nofun fun h => not_isName hid h.table
  · exact iff_of_false nofun fun h => h.size hsize
  · rw [scanFields_err, validateFields_ok_iff]
    have htable : IsName d.tableName := isValidIdentifier_iff.mp (by simpa using hid)
    obtain ⟨⟨-, hcount⟩, harray⟩ : (d.tableName.isNone = false ∧ 0 < d.fieldCount) ∧
        d.fields.isSome := by
      simpa [Option.isSome_iff_ne_none] using hnull
    constructor
    · exact fun h => ⟨htable, hsize, hcount, harray, h.1, h.2⟩
    · exact fun h => ⟨h.names, h.nodup⟩

/-- **Validation** accepts the well-formed models and no others. It reports a duplicate only where
two fields have one name, and a type error only where a name is none, and compares no null name. -/
theorem validation_exact (p : Option Descriptor) :
    ((checkModel p).1 = .ok ↔ ∃ d ∈ p, d.WellFormed) ∧
    ((checkModel p).1 = .dup → ∃ d ∈ p, ∃ s, List.Duplicate (some s) (d.scanned.map Field.name)) ∧
    ((checkModel p).1 = .type →
      ∃ d ∈ p, ¬ IsName d.tableName ∨ ∃ f ∈ d.scanned, ¬ IsName f.name) ∧
    ∀ c ∈ (checkModel p).2, c.1.isSome ∧ c.2.isSome := by
  cases p with
  | none => simp [checkModel]
  | some d =>
    simp only [Option.mem_def, Option.some.injEq, exists_eq_left']
    refine ⟨checkModel_ok_iff d, ?_⟩
    rw [checkModel]
    split_ifs with hnull hid hsize
    · exact ⟨nofun, nofun, by simp⟩
    · exact ⟨nofun, fun _ => Or.inl (not_isName hid), by simp⟩
    · exact ⟨nofun, nofun, by simp⟩
    · rw [scanFields_err]
      exact ⟨validateFields_dup, fun h => Or.inr (validateFields_type h), scanFields_compares _⟩

end Corm
