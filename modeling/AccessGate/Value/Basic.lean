import AccessGate.Number.Double

/-!
# Loosely typed values

Claims, configuration data, requests and error details all arrive as data whose shape nobody
promised. This file holds the one type they share and the few questions asked of it everywhere.

* `AccessGate.Value` – a **value**. A list and a tuple are both sequences and stay apart only where
  a rule says so; whole numbers and doubles are different things even when they are equal.
* `AccessGate.Members` – the **members of a mapping** in their order. A key may be any value that
  can be a key; `find?` reads a member and `put` writes one, keeping its place if the key is there.
* `AccessGate.Value.equals` – **when two values are equal**: numbers by their value whatever their
  type, so that `1`, `1.0` and `true` are the same key, mappings whatever the order of their
  members, and everything else by kind and content.
* `AccessGate.Value.isTruthy` – whether a value **counts as given**; an empty one does not.
-/

namespace AccessGate

/-- A value of any shape. An `object` has named attributes and is not a mapping. -/
inductive Value where
  | null
  | bool (b : Bool)
  | int (n : Int)
  | float (x : Double)
  | text (s : String)
  | bytes (bs : List UInt8)
  | list (items : List Value)
  | tuple (items : List Value)
  | mapping (members : List (Value × Value))
  | object (attributes : List (String × Value))
deriving Repr, Inhabited

/-- The members of a mapping, in order. -/
abbrev Members := List (Value × Value)

namespace Value

/-! ### Equality -/

mutual

/-- Are two values the same, kind and content? -/
def isSame : Value → Value → Bool
  | .null, other => match other with | .null => true | _ => false
  | .bool a, other => match other with | .bool b => a == b | _ => false
  | .int m, other => match other with | .int n => m == n | _ => false
  | .float x, other => match other with | .float y => x == y | _ => false
  | .text s, other => match other with | .text t => s == t | _ => false
  | .bytes as, other => match other with | .bytes bs => as == bs | _ => false
  | .list xs, other => match other with | .list ys => areSame xs ys | _ => false
  | .tuple xs, other => match other with | .tuple ys => areSame xs ys | _ => false
  | .mapping ms, other => match other with | .mapping ns => areSameMembers ms ns | _ => false
  | .object as, other => match other with | .object bs => areSameAttributes as bs | _ => false
termination_by structural a => a

def areSame : List Value → List Value → Bool
  | [], others => others.isEmpty
  | x :: xs, others =>
      match others with
      | y :: ys => isSame x y && areSame xs ys
      | [] => false
termination_by structural xs => xs

def areSameMembers : List (Value × Value) → List (Value × Value) → Bool
  | [], others => others.isEmpty
  | (j, v) :: ms, others =>
      match others with
      | (k, w) :: ns => isSame j k && isSame v w && areSameMembers ms ns
      | [] => false
termination_by structural ms => ms

def areSameAttributes : List (String × Value) → List (String × Value) → Bool
  | [], others => others.isEmpty
  | (m, v) :: as, others =>
      match others with
      | (n, w) :: bs => m == n && isSame v w && areSameAttributes as bs
      | [] => false
termination_by structural as => as

end

mutual

theorem eq_of_isSame : (a b : Value) → isSame a b = true → a = b
  | .null, b, h => by cases b <;> simp_all [isSame]
  | .bool _, b, h => by cases b <;> simp_all [isSame]
  | .int _, b, h => by cases b <;> simp_all [isSame]
  | .float _, b, h => by cases b <;> simp_all [isSame]
  | .text _, b, h => by cases b <;> simp_all [isSame]
  | .bytes _, b, h => by cases b <;> simp_all [isSame]
  | .list xs, b, h => by
      cases b with
      | list ys => rw [eq_of_areSame xs ys (by simpa [isSame] using h)]
      | _ => simp [isSame] at h
  | .tuple xs, b, h => by
      cases b with
      | tuple ys => rw [eq_of_areSame xs ys (by simpa [isSame] using h)]
      | _ => simp [isSame] at h
  | .mapping ms, b, h => by
      cases b with
      | mapping ns => rw [eq_of_areSameMembers ms ns (by simpa [isSame] using h)]
      | _ => simp [isSame] at h
  | .object as, b, h => by
      cases b with
      | object bs => rw [eq_of_areSameAttributes as bs (by simpa [isSame] using h)]
      | _ => simp [isSame] at h

theorem eq_of_areSame : (xs ys : List Value) → areSame xs ys = true → xs = ys
  | [], ys, h => by cases ys <;> simp_all [areSame]
  | x :: xs, ys, h => by
      cases ys with
      | nil => simp [areSame] at h
      | cons y ys =>
        obtain ⟨hx, hxs⟩ : isSame x y = true ∧ areSame xs ys = true := by simpa [areSame] using h
        rw [eq_of_isSame x y hx, eq_of_areSame xs ys hxs]

theorem eq_of_areSameMembers :
    (ms ns : List (Value × Value)) → areSameMembers ms ns = true → ms = ns
  | [], ns, h => by cases ns <;> simp_all [areSameMembers]
  | (j, v) :: ms, ns, h => by
      cases ns with
      | nil => simp [areSameMembers] at h
      | cons n ns =>
        obtain ⟨k, w⟩ := n
        obtain ⟨⟨hk, hv⟩, hms⟩ :
            (isSame j k = true ∧ isSame v w = true) ∧ areSameMembers ms ns = true := by
          simpa [areSameMembers] using h
        rw [eq_of_isSame j k hk, eq_of_isSame v w hv, eq_of_areSameMembers ms ns hms]

theorem eq_of_areSameAttributes :
    (as bs : List (String × Value)) → areSameAttributes as bs = true → as = bs
  | [], bs, h => by cases bs <;> simp_all [areSameAttributes]
  | (m, v) :: as, bs, h => by
      cases bs with
      | nil => simp [areSameAttributes] at h
      | cons b bs =>
        obtain ⟨n, w⟩ := b
        obtain ⟨⟨hn, hv⟩, has⟩ :
            (m = n ∧ isSame v w = true) ∧ areSameAttributes as bs = true := by
          simpa [areSameAttributes] using h
        rw [hn, eq_of_isSame v w hv, eq_of_areSameAttributes as bs has]

end

mutual

theorem isSame_self : (a : Value) → isSame a a = true
  | .null => by simp [isSame]
  | .bool _ => by simp [isSame]
  | .int _ => by simp [isSame]
  | .float _ => by simp [isSame]
  | .text _ => by simp [isSame]
  | .bytes _ => by simp [isSame]
  | .list xs => by simpa [isSame] using areSame_self xs
  | .tuple xs => by simpa [isSame] using areSame_self xs
  | .mapping ms => by simpa [isSame] using areSameMembers_self ms
  | .object as => by simpa [isSame] using areSameAttributes_self as

theorem areSame_self : (xs : List Value) → areSame xs xs = true
  | [] => by simp [areSame]
  | x :: xs => by simp [areSame, isSame_self x, areSame_self xs]

theorem areSameMembers_self : (ms : List (Value × Value)) → areSameMembers ms ms = true
  | [] => by simp [areSameMembers]
  | (k, v) :: ms => by
      simp [areSameMembers, isSame_self k, isSame_self v, areSameMembers_self ms]

theorem areSameAttributes_self : (as : List (String × Value)) → areSameAttributes as as = true
  | [] => by simp [areSameAttributes]
  | (_, v) :: as => by simp [areSameAttributes, isSame_self v, areSameAttributes_self as]

end

theorem isSame_iff (a b : Value) : isSame a b = true ↔ a = b :=
  ⟨eq_of_isSame a b, fun h => h ▸ isSame_self a⟩

instance : DecidableEq Value := fun a b => decidable_of_iff _ (isSame_iff a b)

/-! ### Numbers -/

/-- The place of a number on the number line. Truth values count as one and zero; what is no
number has no place, the double that is not a number included. -/
def point? : Value → Option Point
  | .bool b => some (Point.ofInt (if b then 1 else 0))
  | .int n => some (Point.ofInt n)
  | .float x => Point.ofDouble? x
  | _ => none

/-- Is the value of a numeric kind? -/
def isNumber : Value → Bool
  | .bool _ => true
  | .int _ => true
  | .float _ => true
  | _ => false

/-- Is the value a text? -/
def isText : Value → Bool
  | .text _ => true
  | _ => false

/-- Does the value count as given? Nothing, zero, and what is empty do not. -/
def isTruthy : Value → Bool
  | .null => false
  | .bool b => b
  | .int n => n != 0
  | .float x => !x.isZero
  | .text s => !s.isEmpty
  | .bytes bs => !bs.isEmpty
  | .list xs => !xs.isEmpty
  | .tuple xs => !xs.isEmpty
  | .mapping ms => !ms.isEmpty
  | .object _ => true

/-- The value, or `other` when it does not count as given. -/
def orElse (v other : Value) : Value := if v.isTruthy then v else other

/-! ### Keys -/

mutual

/-- Can the value be a key? Lists, mappings and objects cannot, nor a tuple that holds one. -/
def isKey : Value → Bool
  | .list _ => false
  | .mapping _ => false
  | .object _ => false
  | .tuple xs => areKeys xs
  | _ => true

def areKeys : List Value → Bool
  | [] => true
  | x :: xs => isKey x && areKeys xs

end

/-- Are two numbers in the same place on the number line? -/
def atSamePoint (a b : Value) : Bool :=
  match a.point?, b.point? with
  | some p, some q => p == q
  | _, _ => false

mutual

/-- Are two values equal? Two keys that are equal are one and the same. -/
def equals : Value → Value → Bool
  | .null, other => match other with | .null => true | _ => false
  | .text s, other => match other with | .text t => s == t | _ => false
  | .bytes as, other => match other with | .bytes bs => as == bs | _ => false
  | .list xs, other => match other with | .list ys => areEqual xs ys | _ => false
  | .tuple xs, other => match other with | .tuple ys => areEqual xs ys | _ => false
  | .mapping ms, other =>
      match other with
      | .mapping ns => ms.length == ns.length && haveEquals ms ns
      | _ => false
  | .object as, other =>
      match other with
      | .object bs => as.length == bs.length && haveEqualAttributes as bs
      | _ => false
  | .bool b, other => atSamePoint (.bool b) other
  | .int n, other => atSamePoint (.int n) other
  | .float x, other => atSamePoint (.float x) other
termination_by structural a => a

def areEqual : List Value → List Value → Bool
  | [], others => others.isEmpty
  | x :: xs, others =>
      match others with
      | y :: ys => equals x y && areEqual xs ys
      | [] => false
termination_by structural xs => xs

/-- Has every member an equal one among the others, wherever it stands? -/
def haveEquals : List (Value × Value) → List (Value × Value) → Bool
  | [], _ => true
  | (k, v) :: ms, others =>
      others.any (fun m => equals k m.1 && equals v m.2) && haveEquals ms others
termination_by structural ms => ms

def haveEqualAttributes : List (String × Value) → List (String × Value) → Bool
  | [], _ => true
  | (name, v) :: as, others =>
      others.any (fun a => name == a.1 && equals v a.2) && haveEqualAttributes as others
termination_by structural as => as

end

/-! ### Sequences -/

/-- The items of a list or tuple. -/
def items? : Value → Option (List Value)
  | .list xs => some xs
  | .tuple xs => some xs
  | _ => none

/-- The values met when a value is gone through from front to back: the items of a sequence, the
characters of a text, the numbers of a byte string, the keys of a mapping. -/
def elements? : Value → Option (List Value)
  | .list xs => some xs
  | .tuple xs => some xs
  | .text s => some (s.toList.map fun c => .text (String.singleton c))
  | .bytes bs => some (bs.map fun b => .int b.toNat)
  | .mapping ms => some (ms.map Prod.fst)
  | _ => none

end Value

/-! ### Members -/

namespace Members

/-- The value under a key. -/
def find? : Members → Value → Option Value
  | [], _ => none
  | (k, v) :: rest, key => if k.equals key then some v else find? rest key

/-- The value under a name, nothing if there is none. -/
def get (ms : Members) (name : String) : Value := (ms.find? (.text name)).getD .null

/-- The members with `value` under `key`: in the place of the old value, or else at the end. -/
def put : Members → Value → Value → Members
  | [], key, value => [(key, value)]
  | (k, v) :: rest, key, value =>
      if k.equals key then (k, value) :: rest else (k, v) :: put rest key value

/-- The members written one after the other; of equal keys the first keeps its place and the last
its value. -/
def ofPairs (pairs : List (Value × Value)) : Members :=
  pairs.foldl (fun ms (k, v) => ms.put k v) []

/-- The members of `ms` with all of `updates` put. -/
def update (ms updates : Members) : Members :=
  updates.foldl (fun ms (k, v) => ms.put k v) ms

end Members

end AccessGate
