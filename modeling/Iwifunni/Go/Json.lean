/-
Iwifunni/Go/Json.lean

JSON documents as Go sees them, decoding into Go values, and `fmt.Sprint`.

A `json.RawMessage` or a `[]byte` column is an `Option Json`: `none` is the empty
slice, which the database driver sends as NULL.  Documents are trees, texts are
not modelled.  A number is the `float64` Go decodes it to, given by its shortest
decimal form

    ± 0.d₁d₂...dₙ × 10^point

which is what `encoding/json` and `fmt` print.

Decoding follows `encoding/json`: a `null` leaves the destination alone, keys of
a struct are matched up to case, of several matching keys the last one wins, and
a value of the wrong kind is an error.
-/
import Mathlib.Data.List.Nodup
import Iwifunni.Go.Strings

namespace Iwifunni.Go

/-- A `float64`, by its shortest decimal form. -/
structure Number where
  neg : Bool
  digits : List (Fin 10)
  point : Int
  deriving DecidableEq

/-- The value of a number that has no fraction. -/
def Number.int? (x : Number) : Option Int :=
  if (x.digits.length : Int) ≤ x.point then
    let zeros := (x.point - x.digits.length).toNat
    let n : ℕ := (x.digits.map Fin.val ++ List.replicate zeros 0).foldl (fun n d => 10 * n + d) 0
    some (if x.neg then -(n : Int) else n)
  else none

inductive Json
  | null
  | bool (b : Bool)
  | num (x : Number)
  | str (s : String)
  | arr (xs : List Json)
  | obj (fields : List (String × Json))

/-- An `error` of the standard library, by its text. -/
abbrev DecodeError : Type := String

namespace Json

/-! ### Maps -/

/-- The value a Go map holds for a key: of equal keys the last one wins. -/
def lookup (fields : List (String × α)) (key : String) : Option α :=
  (fields.reverse.find? fun f => f.1 == key).map (·.2)

/-- Set a key of a Go map. -/
def insert (fields : List (String × α)) (key : String) (value : α) : List (String × α) :=
  fields.filter (fun f => f.1 != key) ++ [(key, value)]

theorem lookup_insert_self (fields : List (String × α)) (key : String) (value : α) :
    lookup (insert fields key value) key = some value := by
  simp [lookup, insert]

/-- Other keys keep their values. -/
theorem lookup_insert_of_ne {fields : List (String × α)} {key key' : String} {value : α}
    (h : key' ≠ key) : lookup (insert fields key value) key' = lookup fields key' := by
  have hskip : ∀ l : List (String × α), (l.filter fun f => f.1 != key).find?
      (fun f => f.1 == key') = l.find? fun f => f.1 == key' := by
    intro l
    rw [List.find?_filter]
    congr 1
    funext f
    by_cases hf : f.1 = key'
    · simp [hf, h]
    · simp [hf]
  simp only [lookup, insert, List.reverse_append, List.reverse_singleton, List.cons_append,
    List.nil_append, List.find?_cons, beq_eq_false_iff_ne.mpr h.symm, ← List.filter_reverse,
    hskip]

theorem lookup_insert (fields : List (String × α)) (key name : String) (value : α) :
    lookup (insert fields key value) name =
      if name = key then some value else lookup fields name := by
  split
  · next h =>
      rw [h]
      exact lookup_insert_self ..
  · next h => exact lookup_insert_of_ne h

/-- The first entry counts only if there is no later one. -/
theorem lookup_cons (f : String × α) (fields : List (String × α)) (name : String) :
    lookup (f :: fields) name =
      (lookup fields name).or (if name = f.1 then some f.2 else none) := by
  have hhead : ([f].find? fun g => g.1 == name).map (·.2) = if name = f.1 then some f.2 else none := by
    by_cases h : name = f.1
    · simp [h]
    · simp [h, Ne.symm h]
  rw [lookup, List.reverse_cons, List.find?_append, Option.map_or, hhead]
  rfl

/-- A map merged over another: its values come first. -/
theorem lookup_foldl_insert (data vars : List (String × α)) (name : String) :
    lookup (data.foldl (fun vars f => insert vars f.1 f.2) vars) name =
      (lookup data name).or (lookup vars name) := by
  induction data generalizing vars with
  | nil => rfl
  | cons f data ih =>
      rw [List.foldl_cons, ih, lookup_insert, lookup_cons]
      rcases lookup data name with - | v
      · simp only [Option.none_or]
        split
        · rfl
        · rfl
      · rfl

/-- In a map without repeated keys every entry is found. -/
theorem lookup_of_mem {fields : List (String × α)} {key : String} {value : α}
    (hnodup : (fields.map Prod.fst).Nodup) (h : (key, value) ∈ fields) :
    lookup fields key = some value := by
  unfold lookup
  rcases hfind : fields.reverse.find? fun f => f.1 == key with - | ⟨key', value'⟩
  · have hnone := List.find?_eq_none.mp hfind _ (List.mem_reverse.mpr h)
    simp at hnone
  · have hkey : key' = key := by simpa using List.find?_some hfind
    have hmem := List.mem_reverse.mp (List.mem_of_find?_eq_some hfind)
    have heq := List.inj_on_of_nodup_map hnodup hmem h hkey
    rw [hfind, heq]
    rfl

/-! ### Decoding -/

/-- How `encoding/json` names the kind of a value. -/
def kind : Json → String
  | null => "null"
  | bool _ => "bool"
  | num _ => "number"
  | str _ => "string"
  | arr _ => "array"
  | obj _ => "object"

/-- `json.UnmarshalTypeError`. -/
def typeError (v : Json) (type : String) : DecodeError :=
  "json: cannot unmarshal " ++ v.kind ++ " into Go value of type " ++ type

/-- Decode into a `string`. -/
def toStr (old : String) : Json → Except DecodeError String
  | null => .ok old
  | str s => .ok s
  | v => .error (v.typeError "string")

/-- Decode the elements of a `[]string`. -/
def toStrs : List Json → Except DecodeError (List String)
  | [] => .ok []
  | v :: vs => do
      let s ← toStr "" v
      let ss ← toStrs vs
      return s :: ss

/-- Decode into a `[]string`; `null` sets it to nil. -/
def toStrList : Json → Except DecodeError (List String)
  | null => .ok []
  | arr vs => toStrs vs
  | v => .error (v.typeError "[]string")

/-- Decode into a `map[string]any`; `null` gives the nil map. -/
def toMap : Json → Except DecodeError (List (String × Json))
  | null => .ok []
  | obj fields => .ok fields
  | v => .error (v.typeError "map[string]interface {}")

/-- The fields of an object to decode a struct from; `null` sets no field. -/
def structFields (type : String) : Json → Except DecodeError (List (String × Json))
  | null => .ok []
  | obj fields => .ok fields
  | v => .error (v.typeError type)

/-- Decode one struct field: every key that matches its name, in order. -/
def field (fields : List (String × Json)) (name : String) (zero : α)
    (decode : α → Json → Except DecodeError α) : Except DecodeError α :=
  (fields.filter fun f => equalFold f.1 name).foldlM (fun acc f => decode acc f.2) zero

@[simp] theorem field_nil (name : String) (zero : α)
    (decode : α → Json → Except DecodeError α) : field [] name zero decode = .ok zero := rfl

/-- A key of another name is skipped. -/
theorem field_cons_of_ne {key name : String} (h : equalFold key name = false) (v : Json)
    (fs : List (String × Json)) (zero : α) (decode : α → Json → Except DecodeError α) :
    field ((key, v) :: fs) name zero decode = field fs name zero decode := by
  simp only [field, List.filter_cons, h, Bool.false_eq_true, if_false]

/-- A matching key is decoded over what the earlier ones left. -/
theorem field_cons_self (name : String) (v : Json) (fs : List (String × Json)) (zero : α)
    (decode : α → Json → Except DecodeError α) :
    field ((name, v) :: fs) name zero decode
      = decode zero v >>= fun a => field fs name a decode := by
  simp only [field, List.filter_cons, equalFold_refl, if_true, List.foldlM_cons]

/-- What `json.Unmarshal` does with an empty slice. -/
def endOfInput : DecodeError := "unexpected end of JSON input"

/-- `json.Unmarshal` of a `[]byte`. -/
def unmarshal (raw : Option Json) (decode : Json → Except DecodeError α) :
    Except DecodeError α :=
  match raw with
  | none => .error endOfInput
  | some v => decode v

end Json

@[simp] theorem except_ok_bind {ε : Type} (a : α) (f : α → Except ε β) :
    (Except.ok a >>= f) = f a := rfl

@[simp] theorem except_error_bind {ε : Type} (e : ε) (f : α → Except ε β) :
    ((Except.error e : Except ε α) >>= f) = .error e := rfl

/-! ### Printing -/

/-- The digits from position `from` on, filled up with zeros. -/
def digitsFrom (ds : List (Fin 10)) (start count : ℕ) : List Char :=
  (List.range count).map fun i => Char.ofNat (48 + ((ds[start + i]?).map Fin.val).getD 0)

/-- `strconv.FormatFloat(x, 'g', -1, 64)`, which is `fmt`'s `%v`. -/
def formatFloat (x : Number) : String :=
  let sign := if x.neg then "-" else ""
  let n := x.digits.length
  let exp := x.point - 1
  if n = 0 then sign ++ "0"
  else if exp < -4 ∨ 6 ≤ exp then
    let mantissa := digitsFrom x.digits 0 1 ++
      (if n = 1 then [] else '.' :: digitsFrom x.digits 1 (n - 1))
    let e := (Nat.repr exp.natAbs).toList
    let e := if e.length < 2 then '0' :: e else e
    sign ++ String.ofList (mantissa ++ 'e' :: (if exp < 0 then '-' else '+') :: e)
  else if 0 < x.point then
    let whole := x.point.toNat
    sign ++ String.ofList (digitsFrom x.digits 0 whole ++
      (if n ≤ whole then [] else '.' :: digitsFrom x.digits whole (n - whole)))
  else
    sign ++ String.ofList ('0' :: '.' :: (List.replicate (-x.point).toNat '0' ++
      digitsFrom x.digits 0 n))

/-- Insert a field at its place in the order of the keys; a later value of the same key
replaces the earlier one. -/
def insertKey (f : String × α) : List (String × α) → List (String × α)
  | [] => [f]
  | g :: gs =>
      if f.1 = g.1 then f :: gs
      else if f.1 < g.1 then f :: g :: gs
      else g :: insertKey f gs

/-- What is inserted brings no other field. -/
theorem mem_insertKey {f g : String × α} {gs : List (String × α)} (h : g ∈ insertKey f gs) :
    g = f ∨ g ∈ gs := by
  induction gs with
  | nil => exact Or.inl (List.mem_singleton.mp h)
  | cons g' gs ih =>
      unfold insertKey at h
      split at h
      · rcases List.mem_cons.mp h with rfl | h
        · exact Or.inl rfl
        · exact Or.inr (List.mem_cons_of_mem _ h)
      · split at h
        · exact List.mem_cons.mp h
        · rcases List.mem_cons.mp h with rfl | h
          · exact Or.inr (List.mem_cons_self ..)
          · exact (ih h).imp_right (List.mem_cons_of_mem _)

/-- The entries of a map, in the order `json.Marshal` writes them. -/
def sortedFields (fields : List (String × α)) : List (String × α) :=
  fields.foldl (fun acc f => insertKey f acc) []

/-- Sorting keeps the fields. -/
theorem mem_sortedFields {f : String × α} {fields : List (String × α)}
    (h : f ∈ sortedFields fields) : f ∈ fields := by
  have hfold : ∀ (fs acc : List (String × α)),
      f ∈ fs.foldl (fun acc f => insertKey f acc) acc → f ∈ fs ∨ f ∈ acc := by
    intro fs
    induction fs with
    | nil => exact fun acc h => Or.inr h
    | cons g fs ih =>
        intro acc h
        rcases ih _ h with h | h
        · exact Or.inl (List.mem_cons_of_mem _ h)
        · rcases mem_insertKey h with rfl | h
          · exact Or.inl (List.mem_cons_self ..)
          · exact Or.inr h
  rcases hfold fields [] h with h | h
  · exact h
  · cases h

mutual

/-- `fmt.Sprint` of a decoded value. -/
def sprint : Json → String
  | .null => "<nil>"
  | .bool b => if b then "true" else "false"
  | .num x => formatFloat x
  | .str s => s
  | .arr xs => "[" ++ join " " (sprintList xs) ++ "]"
  | .obj fields =>
      "map[" ++ join " " (((sprintFields fields).foldl (fun acc f => insertKey f acc) []).map
        fun f => f.1 ++ ":" ++ f.2) ++ "]"

/-- The elements of a slice, printed. -/
def sprintList : List Json → List String
  | [] => []
  | x :: xs => sprint x :: sprintList xs

/-- The entries of a map, printed. -/
def sprintFields : List (String × Json) → List (String × String)
  | [] => []
  | (k, v) :: fs => (k, sprint v) :: sprintFields fs

end

example : sprint (.num ⟨false, [1, 5], 7⟩) = "1.5e+06" := by decide

end Iwifunni.Go
