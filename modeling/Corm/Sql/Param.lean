import Corm.Sql.Lex

/-!
# Placeholders and their values

* `Item`: a token, or a value in the place of a placeholder;
* `fill`: put the values in: `?` takes them from left to right, `$k` takes the `k`-th;
* `slots`: which value each placeholder takes; **`values_fill`**: the values in a filled text;
* `fill_append`, `fill_plain`: filling two texts in a row, and a text without placeholders;
* **`values_fill_marked`**: the values of a text whose placeholders are all `?`.
-/

namespace Sql

/-- A token of a statement whose placeholders have their values. -/
inductive Item (V : Type)
  | tok (t : Tok)
  | val (v : V)
  deriving DecidableEq

/-- The index of the value a placeholder takes, when `n` placeholders `?` stand before it. -/
def slot (n : ℕ) : Option ℕ → Option ℕ
  | none => some n
  | some 0 => none
  | some (k + 1) => some k

/-- The number of `?` after a token. -/
def tick (n : ℕ) : Tok → ℕ
  | .param none => n + 1
  | _ => n

/-- The number of `?` in a list of tokens. -/
def marks (ts : List Tok) : ℕ := ts.foldl tick 0

variable {V : Type}

/-- One token with the values put in. -/
def fillTok (vs : List V) (n : ℕ) : Tok → Option (Item V)
  | .param k => (slot n k).bind fun i => vs[i]?.map .val
  | t => some (.tok t)

/-- Replace the placeholders by the values they take, after `n` placeholders `?`. -/
def fill (vs : List V) (n : ℕ) : List Tok → Option (List (Item V))
  | [] => some []
  | t :: ts => (fillTok vs n t).bind fun i => (fill vs (tick n t) ts).map (i :: ·)

/-- The values of a filled text, in order. -/
def values : List (Item V) → List V
  | [] => []
  | .tok _ :: is => values is
  | .val v :: is => v :: values is

/-- The indices of the values that the placeholders take, in order. -/
def slots (n : ℕ) : List Tok → List (Option ℕ)
  | [] => []
  | .param k :: ts => slot n k :: slots (tick n (.param k)) ts
  | _ :: ts => slots n ts

variable {vs : List V} {n : ℕ} {a b ts : List Tok} {is : List (Item V)}

theorem foldl_tick (n : ℕ) (ts : List Tok) : ts.foldl tick n = n + marks ts := by
  unfold marks
  induction ts generalizing n with
  | nil => rfl
  | cons t ts ih =>
    rw [List.foldl_cons, List.foldl_cons, ih, ih (tick 0 t)]
    rcases t with _ | _ | _ | (_ | k) <;> simp only [tick] <;> omega

theorem marks_append : marks (a ++ b) = marks a + marks b := by
  rw [marks, List.foldl_append, foldl_tick]
  rfl

theorem fill_cons (vs : List V) (n : ℕ) (t : Tok) (ts : List Tok) :
    fill vs n (t :: ts) =
      (fillTok vs n t).bind fun i => (fill vs (tick n t) ts).map (i :: ·) := rfl

theorem fill_append (vs : List V) (n : ℕ) (a b : List Tok) :
    fill vs n (a ++ b) =
      (fill vs n a).bind fun x => (fill vs (n + marks a) b).map (x ++ ·) := by
  induction a generalizing n with
  | nil =>
    show fill vs n b = (fill vs (n + 0) b).map ([] ++ ·)
    simp
  | cons t a ih =>
    have hm : n + marks (t :: a) = tick n t + marks a := by
      rw [← foldl_tick, ← foldl_tick]
      rfl
    rw [List.cons_append, fill_cons, fill_cons, ih, hm]
    cases fillTok vs n t with
    | none => rfl
    | some i =>
      cases fill vs (tick n t) a with
      | none => rfl
      | some x => simp [Function.comp_def]

theorem fill_append_some {x y : List (Item V)} (ha : fill vs n a = some x)
    (hb : fill vs (n + marks a) b = some y) : fill vs n (a ++ b) = some (x ++ y) := by
  rw [fill_append, ha, Option.bind_some, hb]
  rfl

/-- No token of the text is a placeholder. -/
def Plain (ts : List Tok) : Prop := ∀ k, .param k ∉ ts

theorem Plain.cons {t : Tok} (h : Plain (t :: ts)) : Plain ts :=
  fun k hk => h k (List.mem_cons_of_mem _ hk)

theorem fill_plain (h : Plain ts) (vs : List V) (n : ℕ) : fill vs n ts = some (ts.map .tok) := by
  induction ts generalizing n with
  | nil => rfl
  | cons t ts ih =>
    cases t with
    | param k => exact absurd List.mem_cons_self (h k)
    | _ =>
      rw [fill_cons, ih h.cons]
      rfl

theorem marks_plain (h : Plain ts) : marks ts = 0 := by
  induction ts with
  | nil => rfl
  | cons t ts ih =>
    cases t with
    | param k => exact absurd List.mem_cons_self (h k)
    | _ => exact ih h.cons

/-- The value with a possibly missing index. -/
def pick (vs : List V) (i : Option ℕ) : Option V := i.bind fun i => vs[i]?

/-- **The values in a filled text** are those its placeholders take, in order; a text can be filled
exactly when each of them exists. -/
theorem values_fill (vs : List V) (n : ℕ) (ts : List Tok) :
    (fill vs n ts).map values = (slots n ts).mapM (pick vs) := by
  induction ts generalizing n with
  | nil => rfl
  | cons t ts ih =>
    cases t with
    | param k =>
      have hs : slots n (.param k :: ts) = slot n k :: slots (tick n (.param k)) ts := rfl
      have hf : fillTok vs n (.param k) = (pick vs (slot n k)).map .val := by
        rw [pick, Option.map_bind]
        rfl
      rw [fill_cons, hs, List.mapM_cons, ← ih, hf]
      cases pick vs (slot n k) with
      | none => rfl
      | some v =>
        cases fill vs (tick n (.param k)) ts with
        | none => rfl
        | some is => rfl
    | _ =>
      show (fill vs n _).map values = (slots n ts).mapM (pick vs)
      rw [← ih, fill_cons]
      cases h : fill vs n ts with
      | none => simp [tick, fillTok, h]
      | some is => simp [tick, fillTok, values, h]

theorem slots_append (n : ℕ) (a b : List Tok) :
    slots n (a ++ b) = slots n a ++ slots (n + marks a) b := by
  induction a generalizing n with
  | nil => rfl
  | cons t a ih =>
    have hm : n + marks (t :: a) = tick n t + marks a := by
      rw [← foldl_tick, ← foldl_tick]
      rfl
    rw [hm]
    cases t with
    | param k => exact congrArg (slot n k :: ·) (ih _)
    | _ => exact ih n

theorem slots_append_plain (h : Plain a) (n : ℕ) (b : List Tok) :
    slots n (a ++ b) = slots n b := by
  induction a with
  | nil => rfl
  | cons t a ih =>
    cases t with
    | param k => exact absurd List.mem_cons_self (h k)
    | _ => exact ih h.cons

theorem mapM_eq_some_iff {α β : Type} {f : α → Option β} {l : List α} {r : List β} :
    l.mapM f = some r ↔ l.map f = r.map some := by
  induction l generalizing r with
  | nil => cases r <;> simp
  | cons a l ih =>
    rw [List.mapM_cons, List.map_cons]
    cases hf : f a with
    | none => cases r <;> simp
    | some b =>
      show Option.bind (some b) _ = some r ↔ _
      rw [Option.bind_some]
      cases r with
      | nil => cases l.mapM f <;> simp
      | cons b' r =>
        rw [List.map_cons, List.cons.injEq, ← ih, Option.some.injEq]
        constructor
        · intro h
          obtain ⟨l', hl, h⟩ := Option.bind_eq_some_iff.mp h
          obtain ⟨rfl, rfl⟩ := List.cons.inj (Option.some.inj h)
          exact ⟨rfl, hl⟩
        · rintro ⟨rfl, hl⟩
          rw [hl]
          rfl

/-- The placeholders are all `?`. -/
def Marked (ts : List Tok) : Prop := ∀ k, .param (some k) ∉ ts

theorem marks_cons (t : Tok) (ts : List Tok) : marks (t :: ts) = tick 0 t + marks ts := by
  rw [← foldl_tick]
  rfl

theorem slots_marked (h : Marked ts) (n : ℕ) :
    slots n ts = (List.range' n (marks ts)).map some := by
  induction ts generalizing n with
  | nil => rfl
  | cons t ts ih =>
    have hts : Marked ts := fun k hk => h k (List.mem_cons_of_mem _ hk)
    cases t with
    | param k =>
      cases k with
      | some k => exact absurd List.mem_cons_self (h k)
      | none =>
        rw [marks_cons, show tick 0 (.param none) + marks ts = marks ts + 1 from Nat.add_comm _ _,
          List.range'_succ, List.map_cons, ← ih hts]
        rfl
    | _ =>
      show slots n ts = _
      rw [ih hts, marks_cons]
      exact congrArg (fun k => (List.range' n k).map some) (Nat.zero_add _).symm

theorem slots_length_marked (h : Marked ts) (n : ℕ) : (slots n ts).length = marks ts := by
  rw [slots_marked h, List.length_map, List.length_range']

/-- **Placeholders `?` take the values in order**, from the index `n` on. -/
theorem values_fill_marked (h : Marked ts) {pre vals : List V} (hn : pre.length = n)
    (hlen : vals.length = marks ts) (post : List V) :
    (fill (pre ++ vals ++ post) n ts).map values = some vals := by
  rw [values_fill, slots_marked h, mapM_eq_some_iff, ← hlen, List.map_map]
  refine List.ext_getElem (by simp) fun i h1 h2 => ?_
  have hi : i < vals.length := by simpa using h2
  have hget : (pre ++ vals ++ post)[n + i]? = some vals[i] := by
    rw [List.append_assoc, List.getElem?_append_right (by omega), hn, Nat.add_sub_cancel_left,
      List.getElem?_append_left hi, List.getElem?_eq_getElem hi]
  simpa [pick] using hget

end Sql
