import SkCoord.Python.Assoc
import SkCoord.Python.Str
import Mathlib.Data.Rat.Defs
import Mathlib.Order.Basic

/-!
# JSON values as Python sees them

What `json.loads` returns, with the operations a program applies to a value of unknown shape:
truth value, `==`, `<`, iteration, hashing, and the reads and updates of a `dict`.  `null` is
Python's `None`.
-/

namespace Python

/-- A parsed JSON value. -/
inductive Json where
  | null
  | bool (b : Bool)
  | int (i : Int)
  | float (q : Rat)
  | str (s : String)
  | arr (elems : List Json)
  | obj (fields : List (String × Json))
  deriving Inhabited, Repr

/-- A `dict` with string keys. -/
abbrev Dict := Assoc String Json

namespace Json

/-- `bool(x)`. -/
def truthy : Json → Bool
  | null => false
  | bool b => b
  | int i => i != 0
  | float q => q != 0
  | str s => s != ""
  | arr l => !l.isEmpty
  | obj d => !d.isEmpty

/-- `x or y`. -/
def orElse (x y : Json) : Json := if x.truthy then x else y

/-- `isinstance(x, str) and x`. -/
def isNonEmptyStr : Json → Bool
  | str s => s != ""
  | _ => false

/-- `x is None`. -/
def isNone : Json → Bool
  | null => true
  | _ => false

/-- The field `k` of a dictionary, `None` where it is absent or `x` is no dictionary. -/
def field (x : Json) (k : String) : Json :=
  match x with
  | obj d => (Assoc.get? d k).getD null
  | _ => null

/-- `isinstance(x, dict)`. -/
def isDict : Json → Bool
  | obj _ => true
  | _ => false

/-- The value of a number; `True` and `False` are the integers one and zero. -/
def num? : Json → Option Rat
  | bool b => some (if b then 1 else 0)
  | int i => some i
  | float q => some q
  | _ => none

mutual

/-- `x == y`.  Numbers compare by value, dictionaries without regard to the order of keys. -/
def pyEq : Json → Json → Bool
  | null, y => match y with
    | null => true
    | _ => false
  | str s, y => match y with
    | str t => s == t
    | _ => false
  | arr l, y => match y with
    | arr m => pyEqList l m
    | _ => false
  | obj l, y => match y with
    | obj m => l.length == m.length && pyEqFields l m
    | _ => false
  | x, y => match num? x, num? y with
    | some a, some b => a == b
    | _, _ => false

def pyEqList : List Json → List Json → Bool
  | [], [] => true
  | x :: l, y :: m => pyEq x y && pyEqList l m
  | _, _ => false

/-- Every field of the first dictionary has an equal one in the second. -/
def pyEqFields : List (String × Json) → List (String × Json) → Bool
  | [], _ => true
  | (k, v) :: l, m => m.any (fun p => p.1 == k && pyEq v p.2) && pyEqFields l m

end

/-- `hash(x)` is defined. -/
def hashable : Json → Bool
  | arr _ => false
  | obj _ => false
  | _ => true

/-- The name of the type in an error text. -/
def typeName : Json → String
  | null => "NoneType"
  | bool _ => "bool"
  | int _ => "int"
  | float _ => "float"
  | str _ => "str"
  | arr _ => "list"
  | obj _ => "dict"

/-- `TypeError` unless `x` can be a key of a `dict` or a member of a `set`. -/
def requireHashable (x : Json) : Except PyError Unit :=
  if x.hashable then pure () else throw (.type ("unhashable type: '" ++ x.typeName ++ "'"))

/-- `list(x)`. -/
def iter : Json → Except PyError (List Json)
  | str s => pure (s.toList.map fun c => str (String.singleton c))
  | arr l => pure l
  | obj d => pure (d.map fun p => str p.1)
  | x => throw (.type ("'" ++ x.typeName ++ "' object is not iterable"))

/-- `x in l`. -/
def mem (x : Json) (l : List Json) : Bool := l.any (pyEq x)

/-- `l.remove(x)`. -/
def remove (x : Json) : List Json → List Json
  | [] => []
  | y :: l => if pyEq x y then l else y :: remove x l

/-- `x.append(y)`. -/
def append (x y : Json) : Except PyError Json :=
  match x with
  | arr l => pure (arr (l ++ [y]))
  | _ => throw (.attr ("'" ++ x.typeName ++ "' object has no attribute 'append'"))

/-- `not x.strip()`. -/
def stripEmpty (x : Json) : Except PyError Bool :=
  match x with
  | str s => pure (isBlank s)
  | _ => throw (.attr ("'" ++ x.typeName ++ "' object has no attribute 'strip'"))

/-- `x + 1`. -/
def addOne (x : Json) : Except PyError Json :=
  match x with
  | bool b => pure (int (if b then 2 else 1))
  | int i => pure (int (i + 1))
  | float q => pure (float (q + 1))
  | _ => throw (.type ("unsupported operand type(s) for +: '" ++ x.typeName ++ "' and 'int'"))

/-- `x[k] = v` for a text `k`. -/
def setItem (x : Json) (k : String) (v : Json) : Except PyError Json :=
  match x with
  | obj d => pure (obj (Assoc.set d k v))
  | _ => throw (.type ("'" ++ x.typeName ++ "' object does not support item assignment"))

/-- `x.get(k)`. -/
def getAttr (x : Json) (k : String) : Except PyError Json :=
  match x with
  | obj d => pure ((Assoc.get? d k).getD null)
  | _ => throw (.attr ("'" ++ x.typeName ++ "' object has no attribute 'get'"))

end Json

namespace Dict

/-- `d.get(k)`. -/
def get (d : Dict) (k : String) : Json := (Assoc.get? d k).getD .null

/-- `d.get(k, dflt)`. -/
def getD (d : Dict) (k : String) (dflt : Json) : Json := (Assoc.get? d k).getD dflt

end Dict

/-! ### Laws of equality -/

namespace Json

@[simp] theorem pyEq_null_iff (y : Json) : pyEq null y = true ↔ y = null := by
  cases y <;> simp [pyEq]

@[simp] theorem pyEq_str_iff (s : String) (y : Json) : pyEq (str s) y = true ↔ y = str s := by
  cases y with
  | str t => simpa [pyEq] using eq_comm
  | _ => simp [pyEq]

theorem pyEq_str_right_iff (s : String) (x : Json) : pyEq x (str s) = true ↔ x = str s := by
  cases x <;> simp [pyEq, num?]

theorem pyEq_null_right_iff (x : Json) : pyEq x null = true ↔ x = null := by
  cases x <;> simp [pyEq, num?]

mutual

@[simp] theorem pyEq_refl : ∀ x : Json, pyEq x x = true
  | null => rfl
  | bool b => by cases b <;> rfl
  | int i => by simp [pyEq, num?]
  | float q => by simp [pyEq, num?]
  | str s => by simp [pyEq]
  | arr l => by rw [pyEq]; exact pyEqList_refl l
  | obj d => by
    rw [pyEq, beq_self_eq_true, Bool.true_and]
    exact pyEqFields_self d d fun _ h => h

theorem pyEqList_refl : ∀ l : List Json, pyEqList l l = true
  | [] => rfl
  | x :: l => by rw [pyEqList, pyEq_refl x, pyEqList_refl l]; rfl

theorem pyEqFields_self : ∀ l m : List (String × Json), (∀ p ∈ l, p ∈ m) →
    pyEqFields l m = true
  | [], _, _ => rfl
  | (k, v) :: l, m, h => by
    rw [pyEqFields, pyEqFields_self l m fun p hp => h p (List.mem_cons_of_mem _ hp),
      Bool.and_true, List.any_eq_true]
    exact ⟨(k, v), h _ List.mem_cons_self, by simp [pyEq_refl v]⟩

end

/-- A string is a member of a list of values exactly when it occurs there. -/
theorem mem_str_iff (s : String) (l : List Json) : mem (str s) l = true ↔ str s ∈ l := by
  simp [mem]

@[simp] theorem isNone_iff (x : Json) : x.isNone = true ↔ x = null := by
  cases x <;> simp [isNone]

@[simp] theorem truthy_str (s : String) : (str s).truthy = true ↔ s ≠ "" := by
  simp [truthy]

theorem isNonEmptyStr_iff (x : Json) : x.isNonEmptyStr = true ↔ ∃ s, x = str s ∧ s ≠ "" := by
  cases x <;> simp [isNonEmptyStr]

/-- A non-empty string is truthy. -/
theorem truthy_of_isNonEmptyStr {x : Json} (h : x.isNonEmptyStr = true) : x.truthy = true := by
  obtain ⟨s, rfl, hs⟩ := (isNonEmptyStr_iff x).mp h
  exact (truthy_str s).mpr hs

end Json

/-! ### Laws of dictionaries -/

namespace Dict

@[simp] theorem get_set_self (d : Dict) (k : String) (v : Json) :
    get (Assoc.set d k v) k = v := by simp [get]

@[simp] theorem get_set_ne (d : Dict) {k k' : String} (v : Json) (h : k' ≠ k) :
    get (Assoc.set d k v) k' = get d k' := by simp [get, h]

@[simp] theorem get_erase_self (d : Dict) (k : String) : get (Assoc.erase d k) k = .null := by
  simp [get]

@[simp] theorem get_erase_ne (d : Dict) {k k' : String} (h : k' ≠ k) :
    get (Assoc.erase d k) k' = get d k' := by simp [get, h]

end Dict

end Python
