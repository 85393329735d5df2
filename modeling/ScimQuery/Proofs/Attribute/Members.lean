import Mathlib.Data.List.Nodup
import ScimQuery.Attribute.Path

/-! # Members of objects

The first key of an object with a property (`Object.IsFirst`), which is how names find members
(`key?_eq_some_iff`); and the values that keys have in an object, in two objects joined
(`get?_append`), and in one that is made key by key (`get?_ofKeys`) or member by member
(`get?_ofMembers`), which has no other keys than it is made from.  Where keys differ in more than
case, a name fits at most one member (`NamesDiffer.member?_of_mem`). -/

namespace ScimQuery

namespace Object

/-! ### First keys -/

/-- `o.IsFirst p key`: of the keys of an object with the property `p`, `key` comes first. -/
def IsFirst (o : Object) (p : String → Prop) (key : String) : Prop :=
  ∃ before v after, o = before ++ (key, v) :: after ∧ p key ∧ ∀ m ∈ before, ¬ p m.1

theorem IsFirst.prop {o : Object} {p : String → Prop} {key : String} (h : o.IsFirst p key) :
    p key := by
  obtain ⟨_, _, _, -, hp, -⟩ := h
  exact hp

theorem IsFirst.mem {o : Object} {p : String → Prop} {key : String} (h : o.IsFirst p key) :
    key ∈ o.keys := by
  obtain ⟨before, v, after, rfl, -, -⟩ := h
  rw [keys, List.mem_map]
  exact ⟨(key, v), by simp, rfl⟩

/-- A key that is the first with a property is the first with a narrower one that it has. -/
theorem IsFirst.imp {o : Object} {p q : String → Prop} {key : String} (h : o.IsFirst p key)
    (hq : q key) (hqp : ∀ k, q k → p k) : o.IsFirst q key := by
  obtain ⟨before, v, after, ho, -, hbefore⟩ := h
  exact ⟨before, v, after, ho, hq, fun m hm hqm => hbefore m hm (hqp m.1 hqm)⟩

theorem isFirst_cons {m : String × Json} {o : Object} {p : String → Prop} {key : String} :
    IsFirst (m :: o) p key ↔ (p m.1 ∧ m.1 = key) ∨ (¬ p m.1 ∧ IsFirst o p key) := by
  constructor
  · rintro ⟨before, v, after, ho, hp, hbefore⟩
    cases before with
    | nil =>
        obtain ⟨rfl, rfl⟩ := List.cons.inj ho
        exact .inl ⟨hp, rfl⟩
    | cons n before =>
        obtain ⟨rfl, rfl⟩ := List.cons.inj ho
        refine .inr ⟨hbefore m (by simp), before, v, after, rfl, hp, fun k hk => ?_⟩
        exact hbefore k (List.mem_cons_of_mem _ hk)
  · rintro (⟨hp, rfl⟩ | ⟨hnot, before, v, after, rfl, hp, hbefore⟩)
    · exact ⟨[], m.2, o, rfl, hp, fun _ hm => nomatch hm⟩
    · refine ⟨m :: before, v, after, rfl, hp, fun k hk => ?_⟩
      rcases List.mem_cons.mp hk with rfl | hk
      · exact hnot
      · exact hbefore k hk

theorem IsFirst.unique {o : Object} {p : String → Prop} {key key' : String}
    (h : o.IsFirst p key) (h' : o.IsFirst p key') : key = key' := by
  induction o with
  | nil =>
      obtain ⟨_, _, _, ho, -, -⟩ := h
      simp at ho
  | cons m o ih =>
      rcases isFirst_cons.mp h with ⟨hp, rfl⟩ | ⟨hnot, h⟩
      · rcases isFirst_cons.mp h' with ⟨-, rfl⟩ | ⟨hnot, -⟩
        · rfl
        · exact absurd hp hnot
      · rcases isFirst_cons.mp h' with ⟨hp, rfl⟩ | ⟨-, h'⟩
        · exact absurd hp hnot
        · exact ih h h'

/-- Where some key has a property, there is a first one. -/
theorem exists_isFirst {o : Object} {p : String → Prop} {key : String} (hkey : key ∈ o.keys)
    (hp : p key) : ∃ first, o.IsFirst p first := by
  induction o with
  | nil => cases hkey
  | cons m o ih =>
      by_cases hm : p m.1
      · exact ⟨m.1, isFirst_cons.mpr (.inl ⟨hm, rfl⟩)⟩
      · have hkey : key ∈ keys o := by
          rcases List.mem_cons.mp hkey with rfl | hkey
          · exact absurd hp hm
          · exact hkey
        obtain ⟨first, hfirst⟩ := ih hkey
        exact ⟨first, isFirst_cons.mpr (.inr ⟨hm, hfirst⟩)⟩

/-- The only key with a property is the first one. -/
theorem isFirst_of_forall {o : Object} {p : String → Prop} {key : String} (hkey : key ∈ o.keys)
    (hp : p key) (honly : ∀ k ∈ o.keys, p k → k = key) : o.IsFirst p key := by
  obtain ⟨first, hfirst⟩ := exists_isFirst hkey hp
  rwa [honly first hfirst.mem hfirst.prop] at hfirst

/-- The member that a name fits is the first one whose key differs from the name at most in case. -/
theorem member?_eq_some_iff {o : Object} {name key : String} {v : Json} :
    o.member? name = some (key, v) ↔
      ∃ before after, o = before ++ (key, v) :: after ∧ Text.lower key = Text.lower name ∧
        ∀ m ∈ before, Text.lower m.1 ≠ Text.lower name := by
  unfold member?
  rw [List.find?_eq_some_iff_append]
  simp only [beq_iff_eq, Bool.not_eq_true', beq_eq_false_iff_ne, ne_eq]
  constructor
  · rintro ⟨hk, before, after, ho, hbefore⟩
    exact ⟨before, after, ho, hk, hbefore⟩
  · rintro ⟨before, after, ho, hk, hbefore⟩
    exact ⟨hk, before, after, ho, hbefore⟩

theorem key?_eq_some_iff {o : Object} {name key : String} :
    o.key? name = some key ↔ o.IsFirst (fun k => Text.lower k = Text.lower name) key := by
  unfold key?
  constructor
  · intro h
    obtain ⟨⟨key', v⟩, hm, rfl⟩ := Option.map_eq_some_iff.mp h
    obtain ⟨before, after, ho, hk, hbefore⟩ := member?_eq_some_iff.mp hm
    exact ⟨before, v, after, ho, hk, hbefore⟩
  · rintro ⟨before, v, after, ho, hk, hbefore⟩
    rw [member?_eq_some_iff.mpr ⟨before, after, ho, hk, hbefore⟩]
    rfl

/-! ### Members that names fit -/

theorem member?_cons (m : String × Json) (o : Object) (name : String) :
    member? (m :: o) name = if Text.lower m.1 = Text.lower name then some m else o.member? name := by
  unfold member?
  rw [List.find?_cons]
  dsimp only
  by_cases h : Text.lower m.1 = Text.lower name
  · simp [h]
  · rw [beq_eq_false_iff_ne.mpr h, if_neg h]

theorem mem_of_member? {o : Object} {name : String} {m : String × Json}
    (h : o.member? name = some m) : m ∈ o := List.mem_of_find?_eq_some h

theorem lower_of_member? {o : Object} {name : String} {m : String × Json}
    (h : o.member? name = some m) : Text.lower m.1 = Text.lower name := by
  have := List.find?_some h
  simpa using this

theorem lower_key_of_member? {o : Object} {name key : String} {v : Json}
    (h : o.member? name = some (key, v)) : Text.lower key = Text.lower name :=
  lower_of_member? (m := (key, v)) h

/-- A name fits no member if every key differs from it in more than case. -/
theorem member?_eq_none_iff {o : Object} {name : String} :
    o.member? name = none ↔ ∀ key ∈ o.keys, Text.lower key ≠ Text.lower name := by
  rw [member?, List.find?_eq_none, keys, List.forall_mem_map]
  simp only [beq_iff_eq, ne_eq]

/-- Where keys are distinct, a member is told by its key. -/
theorem eq_of_key_eq {o : Object} (ho : o.keys.Nodup) {m n : String × Json} (hm : m ∈ o)
    (hn : n ∈ o) (h : m.1 = n.1) : m = n := List.inj_on_of_nodup_map ho hm hn h

theorem member?_eq_some_iff_key? {o : Object} (ho : o.keys.Nodup) {name : String}
    {m : String × Json} : o.member? name = some m ↔ m ∈ o ∧ o.key? name = some m.1 := by
  rw [key?, Option.map_eq_some_iff]
  constructor
  · intro h
    exact ⟨mem_of_member? h, m, h, rfl⟩
  · rintro ⟨hm, n, hn, hk⟩
    rwa [eq_of_key_eq ho hm (mem_of_member? hn) hk.symm]

/-! ### Values of keys -/

/-- The member that a name fits has the value of its key. -/
theorem get?_of_member? {o : Object} {name key : String} {v : Json}
    (h : o.member? name = some (key, v)) : o.get? key = some v := by
  obtain ⟨before, after, rfl, hk, hbefore⟩ := member?_eq_some_iff.mp h
  have hnone : before.find? (·.1 == key) = none := by
    rw [List.find?_eq_none]
    intro m hm he
    rw [beq_iff_eq] at he
    exact hbefore m hm (he ▸ hk)
  rw [get?, List.find?_append, hnone]
  simp

theorem get?_eq_none_iff {o : Object} {key : String} : o.get? key = none ↔ key ∉ o.keys := by
  rw [get?, Option.map_eq_none_iff, List.find?_eq_none, keys, List.mem_map]
  constructor
  · rintro h ⟨m, hm, rfl⟩
    exact h m hm (beq_self_eq_true m.1)
  · intro h m hm hk
    exact h ⟨m, hm, beq_iff_eq.mp hk⟩

/-- A key with a value has a member. -/
theorem mem_of_get? {o : Object} {key : String} {v : Json} (h : o.get? key = some v) :
    (key, v) ∈ o := by
  obtain ⟨⟨k, w⟩, hm, rfl⟩ := Option.map_eq_some_iff.mp h
  have hk := List.find?_some hm
  rw [beq_iff_eq] at hk
  subst hk
  exact List.mem_of_find?_eq_some hm

/-- Where keys are distinct, the value of a member is the value of its key. -/
theorem get?_of_mem {o : Object} (ho : o.keys.Nodup) {m : String × Json} (hm : m ∈ o) :
    o.get? m.1 = some m.2 := by
  cases hv : o.get? m.1 with
  | none => exact absurd (List.mem_map_of_mem hm) (get?_eq_none_iff.mp hv)
  | some v =>
      have he : (m.1, v) = m := eq_of_key_eq ho (mem_of_get? hv) hm rfl
      rw [← he]

theorem get?_cons (m : String × Json) (o : Object) (key : String) :
    get? (m :: o) key = if m.1 = key then some m.2 else o.get? key := by
  unfold get?
  rw [List.find?_cons]
  by_cases h : m.1 = key
  · simp [h]
  · rw [beq_eq_false_iff_ne.mpr h, if_neg h]

theorem get?_append (o p : Object) (key : String) :
    get? (o ++ p) key = (o.get? key).or (p.get? key) := by
  unfold get?
  rw [List.find?_append]
  cases o.find? (·.1 == key) with
  | none => rfl
  | some m => rfl

/-- The value of a key in an object made from a list of keys. -/
theorem get?_ofKeys (f : String → Option Json) (keys : List String) (key : String) :
    get? (keys.filterMap fun k => (f k).map fun v => (k, v)) key =
      if key ∈ keys then f key else none := by
  induction keys with
  | nil => rfl
  | cons k keys ih =>
      rw [List.filterMap_cons]
      cases hk : f k with
      | none =>
          rw [Option.map_none, ih]
          by_cases he : key = k
          · subst he
            simp [hk]
          · simp [he]
      | some v =>
          rw [Option.map_some]
          dsimp only
          rw [get?_cons, ih]
          by_cases he : k = key
          · subst he
            simp [hk]
          · simp [he, Ne.symm he]

/-- The value of a key in an object made from another, member by member, where it does not depend on
a member's value whether the member stays. -/
theorem get?_ofMembers (f : String → Json → Option Json)
    (hf : ∀ key v w, f key v = none → f key w = none) (o : Object) (key : String) :
    get? (o.filterMap fun (k, v) => (f k v).map fun w => (k, w)) key = (o.get? key).bind (f key) := by
  induction o with
  | nil => rfl
  | cons m o ih =>
      obtain ⟨k, v⟩ := m
      rw [List.filterMap_cons, get?_cons]
      dsimp only
      cases hk : f k v with
      | none =>
          rw [Option.map_none, ih]
          by_cases he : k = key
          · subst he
            rw [if_pos rfl, Option.bind_some, hk]
            cases get? o k with
            | none => rfl
            | some w => exact hf k v w hk
          · rw [if_neg he]
      | some w =>
          rw [Option.map_some]
          dsimp only
          rw [get?_cons, ih]
          by_cases he : k = key
          · subst he
            rw [if_pos rfl, if_pos rfl, Option.bind_some, hk]
          · rw [if_neg he, if_neg he]

/-! ### Keys of objects that are made -/

theorem keys_ofKeys_sublist (f : String → Option Json) (keys : List String) :
    (Object.keys (keys.filterMap fun k => (f k).map fun v => (k, v))).Sublist keys := by
  induction keys with
  | nil => exact .slnil
  | cons k keys ih =>
      rw [List.filterMap_cons]
      cases hk : f k with
      | none => exact ih.cons k
      | some v => exact ih.cons_cons k

theorem keys_ofMembers_sublist (f : String → Json → Option Json) (o : Object) :
    (Object.keys (o.filterMap fun (k, v) => (f k v).map fun w => (k, w))).Sublist o.keys := by
  induction o with
  | nil => exact .slnil
  | cons m o ih =>
      rw [List.filterMap_cons]
      dsimp only
      cases hk : f m.1 m.2 with
      | none => exact ih.cons m.1
      | some v => exact ih.cons_cons m.1

end Object

/-! ### Keys that differ in more than case -/

namespace Object

/-- Whether no two keys of an object differ at most in case. -/
def NamesDiffer (o : Object) : Prop := o.Pairwise fun m n => Text.lower m.1 ≠ Text.lower n.1

instance (o : Object) : Decidable o.NamesDiffer := inferInstanceAs (Decidable (List.Pairwise _ _))

/-- Then a name fits the only member whose key differs from it at most in case. -/
theorem NamesDiffer.member?_of_mem {o : Object} (ho : o.NamesDiffer) {m : String × Json}
    (hm : m ∈ o) {name : String} (he : Text.lower m.1 = Text.lower name) :
    o.member? name = some m := by
  induction o with
  | nil => cases hm
  | cons n o ih =>
      obtain ⟨hn, ho⟩ := List.pairwise_cons.mp ho
      rw [member?_cons]
      rcases List.mem_cons.mp hm with rfl | hm
      · rw [if_pos he]
      · have hne : Text.lower n.1 ≠ Text.lower name := he ▸ hn m hm
        rw [if_neg hne, ih ho hm]

theorem NamesDiffer.eq_of_lower_eq {o : Object} (ho : o.NamesDiffer) {m n : String × Json}
    (hm : m ∈ o) (hn : n ∈ o) (he : Text.lower m.1 = Text.lower n.1) : m = n :=
  Option.some.inj ((ho.member?_of_mem hm he).symm.trans (ho.member?_of_mem hn rfl))

theorem NamesDiffer.key_eq {o : Object} (ho : o.NamesDiffer) {key key' : String}
    (hkey : key ∈ o.keys) (hkey' : key' ∈ o.keys) (he : Text.lower key = Text.lower key') :
    key = key' := by
  obtain ⟨m, hm, rfl⟩ := List.mem_map.mp hkey
  obtain ⟨n, hn, rfl⟩ := List.mem_map.mp hkey'
  rw [ho.eq_of_lower_eq hm hn he]

/-- A name fits no member of an object with some of the keys of one in which it fits none. -/
theorem member?_eq_none_of_subset {o p : Object} (hsub : p.keys ⊆ o.keys) {name : String}
    (h : o.member? name = none) : p.member? name = none :=
  member?_eq_none_iff.mpr fun key hkey => member?_eq_none_iff.mp h key (hsub hkey)

/-- A name fits the same member of an object with some of the keys of another, if that member is one
of its members. -/
theorem NamesDiffer.member?_eq {o p : Object} (hp : p.NamesDiffer) (hsub : p.keys ⊆ o.keys)
    {name : String} (h : ∀ m, o.member? name = some m → m ∈ p) : p.member? name = o.member? name := by
  cases ho : o.member? name with
  | some m => exact hp.member?_of_mem (h m ho) (lower_of_member? ho)
  | none => exact member?_eq_none_of_subset hsub ho

/-- The member that a name fits in an object with some of the keys of another has the same key. -/
theorem NamesDiffer.member?_eq_get? {o p : Object} (ho : o.NamesDiffer) (hp : p.NamesDiffer)
    (hsub : p.keys ⊆ o.keys) {name key : String} {v : Json} (h : o.member? name = some (key, v)) :
    p.member? name = (p.get? key).map fun w => (key, w) := by
  have hlower := lower_key_of_member? h
  cases hw : p.get? key with
  | some w => exact hp.member?_of_mem (mem_of_get? hw) hlower
  | none =>
      cases hm : p.member? name with
      | none => rfl
      | some m =>
          have hmem := mem_of_member? hm
          obtain ⟨n, hn, hkey⟩ := List.mem_map.mp (hsub (List.mem_map_of_mem hmem))
          have he : n = (key, v) := by
            refine ho.eq_of_lower_eq hn (mem_of_member? h) ?_
            rw [hkey, lower_of_member? hm, hlower]
          subst he
          refine absurd ?_ (get?_eq_none_iff.mp hw)
          rw [show key = m.1 from hkey]
          exact List.mem_map_of_mem hmem

theorem namesDiffer_iff {o : Object} :
    o.NamesDiffer ↔ o.keys.Pairwise fun k k' => Text.lower k ≠ Text.lower k' := by
  rw [keys, List.pairwise_map, NamesDiffer]

theorem NamesDiffer.nodup_keys {o : Object} (ho : o.NamesDiffer) : o.keys.Nodup :=
  (namesDiffer_iff.mp ho).imp fun hne he => hne (congrArg Text.lower he)

end Object

/-! ### Distinct keys -/

/-- Whether no object in a value has two members with one key. -/
inductive Json.HasDistinctKeys : Json → Prop
  | scalar (s : Scalar) : HasDistinctKeys (.scalar s)
  | array {items : List Json} :
      (∀ v ∈ items, HasDistinctKeys v) → HasDistinctKeys (.array items)
  | object {o : Object} :
      o.keys.Nodup → (∀ m ∈ o, HasDistinctKeys m.2) → HasDistinctKeys (.object o)

@[simp] theorem Json.hasDistinctKeys_scalar (s : Scalar) : (Json.scalar s).HasDistinctKeys := .scalar s

@[simp] theorem Json.hasDistinctKeys_nil : (Json.object []).HasDistinctKeys :=
  .object .nil fun _ hm => nomatch hm

@[simp] theorem Json.hasDistinctKeys_cons {m : String × Json} {o : Object} :
    (Json.object (m :: o)).HasDistinctKeys ↔
      m.1 ∉ o.keys ∧ m.2.HasDistinctKeys ∧ (Json.object o).HasDistinctKeys := by
  constructor
  · intro h
    cases h with
    | object hkeys hvalues =>
        obtain ⟨hm, hkeys⟩ := List.nodup_cons.mp hkeys
        exact ⟨hm, hvalues m List.mem_cons_self,
          .object hkeys fun n hn => hvalues n (List.mem_cons_of_mem m hn)⟩
  · rintro ⟨hm, hvalue, ho⟩
    cases ho with
    | object hkeys hvalues =>
        exact .object (List.nodup_cons.mpr ⟨hm, hkeys⟩) (List.forall_mem_cons.mpr ⟨hvalue, hvalues⟩)

theorem Json.HasDistinctKeys.nodup_keys {o : Object} (h : (Json.object o).HasDistinctKeys) :
    o.keys.Nodup := by
  cases h with
  | object hkeys _ => exact hkeys

theorem Json.HasDistinctKeys.of_get? {o : Object} (h : (Json.object o).HasDistinctKeys)
    {key : String} {v : Json} (hv : o.get? key = some v) : v.HasDistinctKeys := by
  cases h with
  | object _ hvalues => exact hvalues _ (Object.mem_of_get? hv)

theorem Json.HasDistinctKeys.of_mem {items : List Json} (h : (Json.array items).HasDistinctKeys)
    {v : Json} (hv : v ∈ items) : v.HasDistinctKeys := by
  cases h with
  | array hitems => exact hitems v hv

/-- Whether no object in a value has two members whose keys differ at most in case. -/
inductive Json.HasDistinctNames : Json → Prop
  | scalar (s : Scalar) : HasDistinctNames (.scalar s)
  | array {items : List Json} :
      (∀ v ∈ items, HasDistinctNames v) → HasDistinctNames (.array items)
  | object {o : Object} :
      o.NamesDiffer → (∀ m ∈ o, HasDistinctNames m.2) → HasDistinctNames (.object o)

theorem Json.HasDistinctNames.namesDiffer {o : Object} (h : (Json.object o).HasDistinctNames) :
    o.NamesDiffer := by
  cases h with
  | object hdiffer _ => exact hdiffer

theorem Json.HasDistinctNames.of_member? {o : Object} (h : (Json.object o).HasDistinctNames)
    {name key : String} {v : Json} (hm : o.member? name = some (key, v)) : v.HasDistinctNames := by
  cases h with
  | object _ hvalues => exact hvalues _ (Object.mem_of_member? hm)

theorem Json.hasDistinctNames_single {key : String} {v : Json} (hv : v.HasDistinctNames) :
    (Json.object [(key, v)]).HasDistinctNames := by
  refine .object (List.pairwise_singleton _ _) fun m hm => ?_
  rw [List.mem_singleton] at hm
  rwa [hm]

theorem Json.hasDistinctNames_pair {key key' : String} (h : Text.lower key ≠ Text.lower key')
    {v w : Json} (hv : v.HasDistinctNames) (hw : w.HasDistinctNames) :
    (Json.object [(key, v), (key', w)]).HasDistinctNames := by
  refine .object (List.pairwise_pair.mpr h) fun m hm => ?_
  rw [List.mem_cons, List.mem_singleton] at hm
  rcases hm with rfl | rfl
  · exact hv
  · exact hw

end ScimQuery
