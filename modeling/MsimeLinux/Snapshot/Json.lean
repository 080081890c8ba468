import Mathlib.Data.List.Nodup
import MsimeLinux.Bytes

/-!
# JSON, as the snapshot code reads it

Snapshots are lines of JSON. The grammar itself is `boost::json`'s, which is not
in this repository, so it is a parameter: `JsonLib.tree` takes a text to the
syntax tree it spells, duplicate keys included. What the repository adds is the
handler `StrictKeys` (SnapshotEnvelope.cpp:18), which follows the parser through
a text and refuses what a snapshot line may not contain.

- `Json.events`: the calls `basic_parser<StrictKeys>` makes for a tree, with the
  limits it takes from the handler and the options.
- `strictKeys_iff`: the handler survives them exactly when the tree is `Strict`:
  what the limits and the callbacks come to, said of the tree.
-/

namespace MsimeLinux

/-- `Failure` (BackendAccountClient.h): an HTTP-like status, and whether the
caller cancelled. -/
structure Failure where
  status : Nat
  cancelled : Bool := false
  deriving DecidableEq, Repr

/-- `std::numeric_limits<std::int64_t>::max()`. -/
def int64Max : Nat := 9223372036854775807

/-- A JSON syntax tree. `int` and `uint` are the two kinds of integer
`boost::json` tells apart: what fits a signed 64-bit integer, and what only fits
an unsigned one. -/
inductive Json where
  | null
  | bool (value : Bool)
  | int (value : Int)
  | uint (value : Nat)
  | double
  | string (value : Bytes)
  | array (elements : List Json)
  | object (members : List (Bytes × Json))
  deriving Repr

/-! Equality of trees, along their structure; the `deriving` handler does not see
through the nesting. -/

mutual

def Json.decEq : (a b : Json) → Decidable (a = b)
  | .null, b => match b with
    | .null => isTrue rfl
    | .bool _ | .int _ | .uint _ | .double | .string _ | .array _ | .object _ => isFalse (by simp)
  | .bool x, b => match b with
    | .bool y => decidable_of_iff (x = y) (by simp)
    | .null | .int _ | .uint _ | .double | .string _ | .array _ | .object _ => isFalse (by simp)
  | .int x, b => match b with
    | .int y => decidable_of_iff (x = y) (by simp)
    | .null | .bool _ | .uint _ | .double | .string _ | .array _ | .object _ => isFalse (by simp)
  | .uint x, b => match b with
    | .uint y => decidable_of_iff (x = y) (by simp)
    | .null | .bool _ | .int _ | .double | .string _ | .array _ | .object _ => isFalse (by simp)
  | .double, b => match b with
    | .double => isTrue rfl
    | .null | .bool _ | .int _ | .uint _ | .string _ | .array _ | .object _ => isFalse (by simp)
  | .string x, b => match b with
    | .string y => decidable_of_iff (x = y) (by simp)
    | .null | .bool _ | .int _ | .uint _ | .double | .array _ | .object _ => isFalse (by simp)
  | .array x, b => match b with
    | .array y => @decidable_of_iff _ (x = y) (by simp) (Json.decEqList x y)
    | .null | .bool _ | .int _ | .uint _ | .double | .string _ | .object _ => isFalse (by simp)
  | .object x, b => match b with
    | .object y => @decidable_of_iff _ (x = y) (by simp) (Json.decEqMembers x y)
    | .null | .bool _ | .int _ | .uint _ | .double | .string _ | .array _ => isFalse (by simp)
termination_by structural a => a

def Json.decEqList : (xs ys : List Json) → Decidable (xs = ys)
  | [], [] => isTrue rfl
  | [], _ :: _ | _ :: _, [] => isFalse (by simp)
  | x :: xs, y :: ys =>
    @decidable_of_iff _ (x = y ∧ xs = ys) (by simp)
      (@instDecidableAnd _ _ (Json.decEq x y) (Json.decEqList xs ys))
termination_by structural xs => xs

def Json.decEqMembers : (xs ys : List (Bytes × Json)) → Decidable (xs = ys)
  | [], [] => isTrue rfl
  | [], _ :: _ | _ :: _, [] => isFalse (by simp)
  | x :: xs, y :: ys =>
    @decidable_of_iff _ (x = y ∧ xs = ys) (by simp)
      (@instDecidableAnd _ _ (Json.decEqMember x y) (Json.decEqMembers xs ys))
termination_by structural xs => xs

def Json.decEqMember : (x y : Bytes × Json) → Decidable (x = y)
  | (k, v), (k', v') =>
    @decidable_of_iff _ (k = k' ∧ v = v') (by simp)
      (@instDecidableAnd _ _ inferInstance (Json.decEq v v'))
termination_by structural x => x

end

instance : DecidableEq Json := Json.decEq

/-- `boost::json::object`: its members, in order. -/
abbrev JsonObject := List (Bytes × Json)

/-- `object.if_contains(key)`. -/
def JsonObject.ifContains (object : JsonObject) (key : Bytes) : Option Json :=
  object.lookup key

theorem JsonObject.mem_of_ifContains {object : JsonObject} {key : Bytes} {json : Json}
    (h : object.ifContains key = some json) : (key, json) ∈ object := by
  obtain ⟨before, after, rfl, _⟩ := List.lookup_eq_some_iff.mp h
  simp

namespace Json

/-- `if_string`, `if_object`, `if_bool`, `if_int64`: the value, if it is of the
kind. -/
def asString : Json → Option Bytes
  | string value => some value
  | _ => none

def asObject : Json → Option JsonObject
  | object members => some members
  | _ => none

def asBool : Json → Option Bool
  | bool value => some value
  | _ => none

def asInt64 : Json → Option Int
  | int value => some value
  | _ => none

theorem asString_eq_some_iff {json : Json} {value : Bytes} :
    json.asString = some value ↔ json = .string value := by
  cases json <;> simp [asString]

theorem asObject_eq_some_iff {json : Json} {members : JsonObject} :
    json.asObject = some members ↔ json = .object members := by
  cases json <;> simp [asObject]

theorem asBool_eq_some_iff {json : Json} {value : Bool} :
    json.asBool = some value ↔ json = .bool value := by
  cases json <;> simp [asBool]

theorem asInt64_eq_some_iff {json : Json} {value : Int} :
    json.asInt64 = some value ↔ json = .int value := by
  cases json <;> simp [asInt64]

end Json

/-- A member of a kind, or the failure that stands for its absence. -/
def JsonObject.member {α : Type} (kind : Json → Option α) (missing : Failure)
    (object : JsonObject) (key : Bytes) : Except Failure α :=
  match (object.ifContains key).bind kind with
  | some value => .ok value
  | none => .error missing

theorem JsonObject.member_eq_ok_iff {α : Type} {kind : Json → Option α} {missing : Failure}
    {object : JsonObject} {key : Bytes} {value : α} :
    object.member kind missing key = .ok value ↔
      ∃ json, object.ifContains key = some json ∧ kind json = some value := by
  rw [← Option.bind_eq_some_iff]
  unfold JsonObject.member
  cases (object.ifContains key).bind kind <;> simp

/-- `boost::json`, as far as snapshots use it. -/
structure JsonLib where
  /-- The tree a text spells, when the whole text is one JSON value and nothing
  but whitespace around it; comments are not JSON. -/
  tree : Bytes → Option Json
  serialize : Json → Bytes

/-! ## The handler -/

/-- The callbacks `basic_parser` makes on its handler. Keys and strings come
whole: how the parser splits them into parts is its own affair, and `StrictKeys`
joins the parts again. -/
inductive SaxEvent where
  | objectBegin
  | objectEnd
  | arrayBegin
  | key (value : Bytes)
  | string (value : Bytes)
  | int64 (value : Int)
  | uint64 (value : Nat)
  | double
  | bool (value : Bool)
  | null
  deriving DecidableEq, Repr

/-- `StrictKeys` (SnapshotEnvelope.cpp:18): the keys seen so far in every object
that is still open, innermost first. -/
structure StrictKeys where
  objects : List (List Bytes) := []
  deriving DecidableEq, Repr

namespace StrictKeys

/-- `max_object_size`, `max_string_size`, `max_key_size` (SnapshotEnvelope.cpp:20). -/
def maxObjectSize : Nat := 16
def maxStringSize : Nat := 65535
def maxKeySize : Nat := 128

/-- `options.max_depth` (SnapshotEnvelope.cpp:102). -/
def maxDepth : Nat := 8

/-- The callbacks; `none` is `throw Failure(400)`. -/
def onEvent (handler : StrictKeys) : SaxEvent → Option StrictKeys
  | .objectBegin => some ⟨[] :: handler.objects⟩
  | .objectEnd => some ⟨handler.objects.tail⟩
  | .arrayBegin => none
  | .key value =>
    match handler.objects with
    | [] => none
    | keys :: outer => if value ∈ keys then none else some ⟨(value :: keys) :: outer⟩
  | .uint64 value => if int64Max < value then none else some handler
  | .double => none
  | .string _ | .int64 _ | .bool _ | .null => some handler

/-- A sequence of callbacks. -/
def run (handler : StrictKeys) (events : List SaxEvent) : Option StrictKeys :=
  events.foldlM onEvent handler

theorem run_append (handler : StrictKeys) (events events' : List SaxEvent) :
    handler.run (events ++ events') = (handler.run events).bind fun h => h.run events' := by
  simp only [run, List.foldlM_append]
  rfl

end StrictKeys

/-! ## The parser -/

/-- The callbacks for one object member: its key, then its value. -/
def memberEvents (events : Json → Option (List SaxEvent)) (member : Bytes × Json) :
    Option (List SaxEvent) :=
  if StrictKeys.maxKeySize < member.1.length then none
  else (events member.2).map (.key member.1 :: ·)

/-- The callbacks `basic_parser<StrictKeys>` makes for a tree, with `depth`
nested values still allowed; `none` is an error of the parser itself (`too_deep`,
`object_too_large`, `key_too_large`, `string_too_large`). -/
def Json.events : Nat → Json → Option (List SaxEvent)
  | _, .null => some [.null]
  | _, .bool value => some [.bool value]
  | _, .int value => some [.int64 value]
  | _, .uint value => some [.uint64 value]
  | _, .double => some [.double]
  | _, .string value =>
    if StrictKeys.maxStringSize < value.length then none else some [.string value]
  | 0, .array _ | 0, .object _ => none
  | _ + 1, .array _ => some [.arrayBegin]
  | depth + 1, .object members =>
    if StrictKeys.maxObjectSize < members.length then none
    else
      (members.mapM (memberEvents (Json.events depth))).map fun parts =>
        .objectBegin :: parts.flatten ++ [.objectEnd]

/-- The strict pass over a text (SnapshotEnvelope.cpp:100): the text is one JSON
value, and neither the parser nor the handler stopped. -/
def strictKeys (tree : Json) : Bool :=
  match tree.events StrictKeys.maxDepth with
  | none => false
  | some events => (StrictKeys.run {} events).isSome

/-- What the strict pass comes to, said of the tree: nesting at most `depth`, no
array, no floating-point number, no integer above the signed 64-bit maximum, at
most 16 members in an object, no key longer than 128 bytes, no key twice. -/
def Json.Strict : Nat → Json → Prop
  | _, .null | _, .bool _ | _, .int _ => True
  | _, .uint value => value ≤ int64Max
  | _, .double => False
  | _, .string value => value.length ≤ StrictKeys.maxStringSize
  | _, .array _ => False
  | 0, .object _ => False
  | depth + 1, .object members =>
    members.length ≤ StrictKeys.maxObjectSize ∧ (members.map Prod.fst).Nodup ∧
      ∀ member ∈ members, member.1.length ≤ StrictKeys.maxKeySize ∧ Json.Strict depth member.2

/-! ## The handler against the tree -/

/-- The callbacks of a strict tree leave the handler as it was. -/
def Json.Passes (events : Json → Option (List SaxEvent)) (value : Json) : Prop :=
  ∃ es, events value = some es ∧ ∀ handler : StrictKeys, handler.run es = some handler

/-- The callbacks of a tree that is not strict stop the handler. -/
def Json.PassesOnly (events : Json → Option (List SaxEvent)) (P : Json → Prop)
    (value : Json) : Prop :=
  ∀ es, events value = some es → ∀ handler handler' : StrictKeys,
    handler.run es = some handler' → handler' = handler ∧ P value

/-- One key in an open object: refused exactly when it was there before. -/
theorem StrictKeys.run_key (keys : List Bytes) (outer : List (List Bytes)) (key : Bytes)
    (es : List SaxEvent) :
    StrictKeys.run ⟨keys :: outer⟩ (.key key :: es) =
      if key ∈ keys then none else StrictKeys.run ⟨(key :: keys) :: outer⟩ es := by
  simp only [StrictKeys.run, List.foldlM_cons, StrictKeys.onEvent]
  split <;> rfl

/-- The members of an object, from inside: they pass when every value does and
no key repeats, or was there before. -/
theorem run_members {events : Json → Option (List SaxEvent)} {members : JsonObject}
    (hvalues : ∀ m ∈ members, m.1.length ≤ StrictKeys.maxKeySize ∧ m.2.Passes events)
    (hnodup : (members.map Prod.fst).Nodup) (keys : List Bytes) (outer : List (List Bytes))
    (hfresh : ∀ m ∈ members, m.1 ∉ keys) :
    ∃ parts keys', members.mapM (memberEvents events) = some parts ∧
      StrictKeys.run ⟨keys :: outer⟩ parts.flatten = some ⟨keys' :: outer⟩ := by
  induction members generalizing keys with
  | nil => exact ⟨[], keys, rfl, rfl⟩
  | cons m members ih =>
    obtain ⟨hlen, es, hes, hpass⟩ := hvalues m List.mem_cons_self
    rw [List.map_cons, List.nodup_cons] at hnodup
    have hfresh' : ∀ m' ∈ members, m'.1 ∉ m.1 :: keys := by
      intro m' hm'
      rw [List.mem_cons, not_or]
      refine ⟨fun heq => hnodup.1 ?_, hfresh m' (List.mem_cons_of_mem _ hm')⟩
      exact heq ▸ List.mem_map_of_mem hm'
    obtain ⟨parts, keys', hparts, hrun⟩ :=
      ih (fun m' hm' => hvalues m' (List.mem_cons_of_mem _ hm')) hnodup.2 (m.1 :: keys) hfresh'
    refine ⟨(.key m.1 :: es) :: parts, keys', ?_, ?_⟩
    · have hm : memberEvents events m = some (.key m.1 :: es) := by
        rw [memberEvents, if_neg (Nat.not_lt.mpr hlen), hes]
        rfl
      simp [List.mapM_cons, hm, hparts]
    · rw [List.flatten_cons, List.cons_append, StrictKeys.run_key,
        if_neg (hfresh m List.mem_cons_self), StrictKeys.run_append, hpass]
      exact hrun

/-- And only then. -/
theorem run_members_only {events : Json → Option (List SaxEvent)} {P : Json → Prop}
    {members : JsonObject} (hvalues : ∀ m ∈ members, m.2.PassesOnly events P)
    {parts : List (List SaxEvent)} (hparts : members.mapM (memberEvents events) = some parts)
    {keys : List Bytes} {outer : List (List Bytes)} {handler : StrictKeys}
    (hrun : StrictKeys.run ⟨keys :: outer⟩ parts.flatten = some handler) :
    (∃ keys', handler = ⟨keys' :: outer⟩) ∧ (members.map Prod.fst).Nodup ∧
      ∀ m ∈ members, (m.1.length ≤ StrictKeys.maxKeySize ∧ P m.2) ∧ m.1 ∉ keys := by
  induction members generalizing keys parts with
  | nil =>
    obtain rfl : parts = [] := by simpa using hparts.symm
    obtain rfl : StrictKeys.mk (keys :: outer) = handler := by simpa [StrictKeys.run] using hrun
    exact ⟨⟨keys, rfl⟩, by simp, by simp⟩
  | cons m members ih =>
    rw [List.mapM_cons] at hparts
    obtain ⟨part, hm, hrest⟩ := Option.bind_eq_some_iff.mp hparts
    obtain ⟨parts', hparts', hcons⟩ := Option.bind_eq_some_iff.mp hrest
    obtain rfl := Option.some.inj hcons
    unfold memberEvents at hm
    split at hm
    · cases hm
    next hlen =>
    -- the key fits, and is new
    obtain ⟨es, hes, rfl⟩ := Option.map_eq_some_iff.mp hm
    rw [List.flatten_cons, List.cons_append, StrictKeys.run_key] at hrun
    split at hrun
    · cases hrun
    next hkey =>
    rw [StrictKeys.run_append] at hrun
    obtain ⟨handler', hvalue, hrest'⟩ := Option.bind_eq_some_iff.mp hrun
    -- the value leaves the keys as they were, and the other members follow
    obtain ⟨rfl, hP⟩ := hvalues m List.mem_cons_self es hes _ _ hvalue
    obtain ⟨hhandler, hnodup, hmembers⟩ :=
      ih (fun m' hm' => hvalues m' (List.mem_cons_of_mem _ hm')) hparts' hrest'
    refine ⟨hhandler, ?_, ?_⟩
    · rw [List.map_cons, List.nodup_cons]
      refine ⟨fun hmem => ?_, hnodup⟩
      obtain ⟨m', hm', heq⟩ := List.mem_map.mp hmem
      exact (hmembers m' hm').2 (heq ▸ List.mem_cons_self)
    · intro m' hm'
      rcases List.mem_cons.mp hm' with rfl | hm'
      · exact ⟨⟨Nat.not_lt.mp hlen, hP⟩, hkey⟩
      · exact ⟨(hmembers m' hm').1, fun hmem => (hmembers m' hm').2 (List.mem_cons_of_mem _ hmem)⟩

/-- The callbacks of a strict tree, in order, leave the handler where it was. -/
theorem Json.Strict.passes {depth : Nat} {value : Json} (h : value.Strict depth) :
    value.Passes (Json.events depth) := by
  induction depth using Nat.strongRecOn generalizing value with
  | _ depth ih =>
    cases value with
    | null => exact ⟨[.null], by simp [Json.events], fun _ => rfl⟩
    | bool b => exact ⟨[.bool b], by simp [Json.events], fun _ => rfl⟩
    | int i => exact ⟨[.int64 i], by simp [Json.events], fun _ => rfl⟩
    | uint n =>
      have hn : n ≤ int64Max := by simpa [Json.Strict] using h
      exact ⟨[.uint64 n], by simp [Json.events], fun _ => by
        simp [StrictKeys.run, StrictKeys.onEvent, Nat.not_lt.mpr hn]⟩
    | string s =>
      have hs : s.length ≤ StrictKeys.maxStringSize := by simpa [Json.Strict] using h
      exact ⟨[.string s], by simp [Json.events, Nat.not_lt.mpr hs], fun _ => rfl⟩
    | double => simp [Json.Strict] at h
    | array elements => simp [Json.Strict] at h
    | object members =>
      cases depth with
      | zero => simp [Json.Strict] at h
      | succ depth =>
        obtain ⟨hsize, hnodup, hmembers⟩ := h
        -- the values lie one level deeper
        have hvalues : ∀ m ∈ members,
            m.1.length ≤ StrictKeys.maxKeySize ∧ m.2.Passes (Json.events depth) :=
          fun m hm => ⟨(hmembers m hm).1, ih depth (Nat.lt_succ_self _) (hmembers m hm).2⟩
        -- the callbacks of the members, between those of the object
        obtain ⟨parts, hparts⟩ : ∃ parts, members.mapM (memberEvents (Json.events depth)) =
            some parts := by
          obtain ⟨parts, _, hparts, _⟩ := run_members hvalues hnodup [] [] (by simp)
          exact ⟨parts, hparts⟩
        refine ⟨.objectBegin :: parts.flatten ++ [.objectEnd], ?_, fun handler => ?_⟩
        · simp [Json.events, Nat.not_lt.mpr hsize, hparts]
        · obtain ⟨parts', keys, hparts', hrun⟩ :=
            run_members hvalues hnodup [] handler.objects (by simp)
          obtain rfl := Option.some.inj (hparts.symm.trans hparts')
          show (StrictKeys.run ⟨[] :: handler.objects⟩ (parts.flatten ++ [.objectEnd])) = _
          rw [StrictKeys.run_append, hrun]
          rfl

/-- And only those of a strict tree get through. -/
theorem Json.events_passesOnly (depth : Nat) (value : Json) :
    value.PassesOnly (Json.events depth) (Json.Strict depth) := by
  induction depth using Nat.strongRecOn generalizing value with
  | _ depth ih =>
    intro es hes handler handler' hrun
    cases value with
    | null | bool _ | int _ =>
      -- one event, which the handler lets through
      simp only [Json.events, Option.some.injEq] at hes
      subst hes
      exact ⟨(Option.some.inj hrun).symm, by simp [Json.Strict]⟩
    | uint n =>
      -- `on_uint64` refuses what does not fit an `int64_t`
      simp only [Json.events, Option.some.injEq] at hes
      subst hes
      simp only [StrictKeys.run, List.foldlM_cons, StrictKeys.onEvent] at hrun
      split at hrun
      · cases hrun
      · next hn => exact ⟨(Option.some.inj hrun).symm, by simpa [Json.Strict] using hn⟩
    | string s =>
      simp only [Json.events] at hes
      split at hes
      · cases hes
      · next hs =>
        obtain rfl := Option.some.inj hes
        exact ⟨(Option.some.inj hrun).symm, by simpa [Json.Strict] using hs⟩
    | double =>
      simp only [Json.events, Option.some.injEq] at hes
      subst hes
      cases hrun
    | array elements =>
      -- `on_array_begin` refuses
      cases depth with
      | zero => simp [Json.events] at hes
      | succ depth =>
        simp only [Json.events, Option.some.injEq] at hes
        subst hes
        cases hrun
    | object members =>
      cases depth with
      | zero => simp [Json.events] at hes
      | succ depth =>
        simp only [Json.events] at hes
        split at hes
        · cases hes
        next hsize =>
        obtain ⟨parts, hparts, rfl⟩ := Option.map_eq_some_iff.mp hes
        change StrictKeys.run ⟨[] :: handler.objects⟩ (parts.flatten ++ [.objectEnd]) =
          some handler' at hrun
        rw [StrictKeys.run_append] at hrun
        obtain ⟨middle, hmembers, hend⟩ := Option.bind_eq_some_iff.mp hrun
        -- the members, each by the induction hypothesis, then `on_object_end`
        obtain ⟨⟨keys, rfl⟩, hnodup, hstrict⟩ :=
          run_members_only (fun m _ => ih depth (Nat.lt_succ_self _) m.2) hparts hmembers
        refine ⟨(Option.some.inj hend).symm, Nat.not_lt.mp hsize, hnodup, fun m hm => ?_⟩
        exact (hstrict m hm).1

/-- **What the strict pass checks**: it accepts exactly the strict trees. -/
theorem strictKeys_iff (tree : Json) :
    strictKeys tree = true ↔ tree.Strict StrictKeys.maxDepth := by
  constructor
  · intro h
    unfold strictKeys at h
    split at h
    · cases h
    · next es hes =>
      obtain ⟨handler, hrun⟩ := Option.isSome_iff_exists.mp h
      exact (Json.events_passesOnly _ tree es hes _ _ hrun).2
  · intro h
    obtain ⟨es, hes, hrun⟩ := h.passes
    simp [strictKeys, hes, hrun]

/-! ## Strings cannot be too long -/

/-- `text` is one of the strings of a tree (object keys are not counted). -/
inductive Json.Contains (text : Bytes) : Json → Prop
  | here : Contains text (.string text)
  | element {elements : List Json} {value : Json} :
      value ∈ elements → Contains text value → Contains text (.array elements)
  | member {members : JsonObject} {m : Bytes × Json} :
      m ∈ members → Contains text m.2 → Contains text (.object members)

/-- An escape is never shorter than what it stands for, so a string of a text is
no longer than the text. -/
def JsonLib.StringsFit (J : JsonLib) : Prop :=
  ∀ text tree, J.tree text = some tree → ∀ s, tree.Contains s → s.length ≤ text.length

/-- `Json.Strict` without the bound on strings. -/
def Json.Admissible : Nat → Json → Prop
  | _, .null | _, .bool _ | _, .int _ | _, .string _ => True
  | _, .uint value => value ≤ int64Max
  | _, .double | _, .array _ => False
  | 0, .object _ => False
  | depth + 1, .object members =>
    members.length ≤ StrictKeys.maxObjectSize ∧ (members.map Prod.fst).Nodup ∧
      ∀ member ∈ members,
        member.1.length ≤ StrictKeys.maxKeySize ∧ Json.Admissible depth member.2

theorem Json.Strict.admissible {depth : Nat} {value : Json} (h : value.Strict depth) :
    value.Admissible depth := by
  induction depth using Nat.strongRecOn generalizing value with
  | _ depth ih =>
    cases value with
    | null | bool _ | int _ | string _ => simp [Json.Admissible]
    | uint _ => simpa [Json.Admissible, Json.Strict] using h
    | double | array _ => simp [Json.Strict] at h
    | object members =>
      cases depth with
      | zero => simp [Json.Strict] at h
      | succ depth =>
        obtain ⟨hsize, hnodup, hmembers⟩ := h
        exact ⟨hsize, hnodup, fun m hm =>
          ⟨(hmembers m hm).1, ih depth (Nat.lt_succ_self _) (hmembers m hm).2⟩⟩

theorem Json.Admissible.strict {depth : Nat} {value : Json} (h : value.Admissible depth)
    (hstrings : ∀ s, value.Contains s → s.length ≤ StrictKeys.maxStringSize) :
    value.Strict depth := by
  induction depth using Nat.strongRecOn generalizing value with
  | _ depth ih =>
    cases value with
    | null | bool _ | int _ => simp [Json.Strict]
    | string s => simpa [Json.Strict] using hstrings s .here
    | uint _ => simpa [Json.Admissible, Json.Strict] using h
    | double | array _ => simp [Json.Admissible] at h
    | object members =>
      cases depth with
      | zero => simp [Json.Admissible] at h
      | succ depth =>
        obtain ⟨hsize, hnodup, hmembers⟩ := h
        exact ⟨hsize, hnodup, fun m hm => ⟨(hmembers m hm).1,
          ih depth (Nat.lt_succ_self _) (hmembers m hm).2 fun s hs => hstrings s (.member hm hs)⟩⟩

/-- **The strict pass over a line**: on a text of at most 65535 bytes it accepts
exactly the admissible trees. -/
theorem strictKeys_iff_admissible {J : JsonLib} (hJ : J.StringsFit) {text : Bytes}
    {tree : Json} (htree : J.tree text = some tree)
    (hlen : text.length ≤ StrictKeys.maxStringSize) :
    strictKeys tree = true ↔ tree.Admissible StrictKeys.maxDepth := by
  rw [strictKeys_iff]
  exact ⟨Json.Strict.admissible, fun h => h.strict fun s hs =>
    Nat.le_trans (hJ text tree htree s hs) hlen⟩

/-! ## What `boost::json` promises -/

/-- A value made of objects without duplicate keys, strings, booleans and signed
64-bit integers: what a parser can give back as it was. -/
inductive Json.Plain : Json → Prop
  | bool (value : Bool) : Plain (.bool value)
  | int {value : Int} : -9223372036854775808 ≤ value → value ≤ 9223372036854775807 →
      Plain (.int value)
  | string (value : Bytes) : Plain (.string value)
  | object {members : JsonObject} : (members.map Prod.fst).Nodup →
      (∀ m ∈ members, Plain m.2) → Plain (.object members)

theorem plain_int64 (n : Int64) : (Json.int n.toInt).Plain :=
  .int n.le_toInt n.toInt_le

theorem plain_int32 (n : Int32) : (Json.int n.toInt).Plain := by
  have hlow : -2147483648 ≤ n.toInt := n.le_toInt
  have hhigh : n.toInt ≤ 2147483647 := n.toInt_le
  exact .int (by omega) (by omega)

/-- The promises of `boost::json` the export relies on. -/
structure JsonLib.Lawful (J : JsonLib) : Prop where
  stringsFit : J.StringsFit
  /-- a text written for a plain value is read as that value, or not at all -/
  roundTrip : ∀ value tree, value.Plain → J.tree (J.serialize value) = some tree → tree = value
  /-- control characters are escaped -/
  oneLine : ∀ value, newline ∉ J.serialize value
  /-- a text that is not UTF-8 is not read -/
  utf8 : ∀ text tree, J.tree text = some tree → ∀ s, tree.Contains s → ValidUtf8 s

/-! ## A library that knows a few lines -/

/-- Parse and write by table. -/
def JsonLib.ofTables (trees : List (Bytes × Json)) (texts : List (Json × Bytes)) : JsonLib where
  tree text := trees.lookup text
  serialize value := (texts.lookup value).getD []

/-- Every string is ASCII and at most `bound` long, down to `depth`. -/
def Json.within (bound : Nat) : Nat → Json → Bool
  | _, .string value => value.length ≤ bound && value.all (· < 128)
  | 0, .object _ | _, .array _ => false
  | depth + 1, .object members => members.all fun m => Json.within bound depth m.2
  | _, _ => true

theorem Json.within_contains {bound depth : Nat} {value : Json} {text : Bytes}
    (h : value.within bound depth = true) (hcontains : value.Contains text) :
    text.length ≤ bound ∧ ∀ c ∈ text, c < 128 := by
  induction hcontains generalizing depth with
  | here => simpa [Json.within] using h
  | element => simp [Json.within] at h
  | member hm _ ih =>
    cases depth with
    | zero => simp [Json.within] at h
    | succ depth => exact ih (List.all_eq_true.mp h _ hm)

/-- The lines of a table as a lawful library: its strings are ASCII and shorter
than the lines, and what it writes it can read. -/
structure JsonLib.GoodTables (trees : List (Bytes × Json)) (texts : List (Json × Bytes)) :
    Prop where
  within : ∀ line ∈ trees, line.2.within line.1.length 8 = true
  empty : trees.lookup [] = none
  roundTrip : ∀ line ∈ texts, ∀ tree, trees.lookup line.2 = some tree →
    tree = line.1 ∨ ¬ line.1.Plain
  oneLine : ∀ line ∈ texts, newline ∉ line.2

theorem JsonLib.GoodTables.lawful {trees : List (Bytes × Json)} {texts : List (Json × Bytes)}
    (h : GoodTables trees texts) : (ofTables trees texts).Lawful := by
  have hlookup : ∀ {α β : Type} [BEq α] [LawfulBEq α] {a : α} {b : β} {l : List (α × β)},
      l.lookup a = some b → (a, b) ∈ l := by
    intro α β _ _ a b l hab
    obtain ⟨l₁, l₂, rfl, _⟩ := List.lookup_eq_some_iff.mp hab
    simp
  have hcontains : ∀ {text : Bytes} {tree : Json}, trees.lookup text = some tree →
      ∀ s, tree.Contains s → s.length ≤ text.length ∧ ∀ c ∈ s, c < 128 :=
    fun htree s hs => Json.within_contains (h.within _ (hlookup htree)) hs
  refine ⟨fun text tree htree s hs => (hcontains htree s hs).1, fun value tree hplain htree => ?_,
    fun value => ?_, fun text tree htree s hs => validUtf8_of_ascii (hcontains htree s hs).2⟩
  · simp only [ofTables] at htree
    cases hvalue : texts.lookup value with
    | none => simp [hvalue, h.empty] at htree
    | some text =>
      rw [hvalue, Option.getD_some] at htree
      exact (h.roundTrip _ (hlookup hvalue) _ htree).resolve_right fun hn => hn hplain
  · simp only [ofTables]
    cases hvalue : texts.lookup value with
    | none => simp
    | some text => exact h.oneLine _ (hlookup hvalue)

end MsimeLinux
