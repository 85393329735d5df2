import ScimQuery.Proofs.Attribute.Routes
import ScimQuery.Proofs.Projection.Address
import ScimQuery.Proofs.Projection.Splitting

/-! # Addresses where keys are missing

What names address in an object that has some of the keys of another, of which no two differ at most in
case.  A name that addresses nothing in the other object addresses nothing in it
(`address?_eq_none_of_subset`), and a name finds what it addressed if the key is still there and no key
encloses another (`address?_of_mem`).

A name whose key is missing may find another one: behind a key that its own encloses, or before a point
in it.  Where neither exists (`IsUnambiguous`, `flat`) it finds nothing, and the addresses in the smaller
object are those whose keys are there (`addresses_of_subset`). -/

namespace ScimQuery
namespace Projection

/-! ### Keys that are still there -/

/-- Where no key encloses another, a name starts with one schema URN that is a key. -/
theorem lower_eq_of_starts {keys : List String}
    (hflat : ∀ outer ∈ keys, ∀ inner ∈ keys, ¬ Encloses outer inner) {name k k' s s' : String}
    (hk : k ∈ keys) (hk' : k' ∈ keys) (hurn : IsUrnName (Text.lower k))
    (hurn' : IsUrnName (Text.lower k')) (hs : name = Text.lower k ++ ":" ++ s)
    (hs' : name = Text.lower k' ++ ":" ++ s') : Text.lower k = Text.lower k' := by
  by_contra hne
  rcases encloses_of_starts hurn hurn' hs hs' hne with h | h
  · exact hflat k hk k' hk' h
  · exact hflat k' hk' k hk h

section Fewer

variable {r o : Object} {name : String} (hsub : o.keys ⊆ r.keys)

section Without

include hsub

theorem exists_isFirst_of_subset {p : String → Prop} {key : String} (h : o.IsFirst p key) :
    ∃ first, r.IsFirst p first :=
  Object.exists_isFirst (p := p) (hsub h.mem) h.prop

theorem not_addressesWhole_of_subset (h : ∀ k, ¬ AddressesWhole r name k) :
    ∀ k, ¬ AddressesWhole o name k := by
  intro k hk
  obtain ⟨first, hfirst⟩ := exists_isFirst_of_subset hsub hk
  exact h first hfirst

/-- A name that addresses nothing addresses nothing where there are fewer keys. -/
theorem address?_eq_none_of_subset (hname : ∀ c ∈ name.toList, Text.IsPlain c)
    (h : address? r name = none) : address? o name = none := by
  have hno : ∀ k, ¬ AddressesWhole r name k := by
    intro k hk
    rw [(address?_eq_whole_iff hname).mpr hk] at h
    cases h
  have hnone : ∀ key part, ¬ AddressesPart r name key part := by
    intro key part hpart
    rw [(address?_eq_part_iff hname).mpr hpart] at h
    cases h
  rw [Option.eq_none_iff_forall_ne_some]
  rintro ⟨key, _ | part⟩ ha
  · exact not_addressesWhole_of_subset hsub hno key ((address?_eq_whole_iff hname).mp ha)
  · cases (address?_eq_part_iff hname).mp ha with
    | extension _ hurn hfirst _ =>
        obtain ⟨first, hr⟩ := exists_isFirst_of_subset hsub hfirst
        obtain ⟨-, s, hs⟩ := hr.prop
        exact hnone first s (.extension hno hurn hr hs)
    | dotted top _ hurn hdot hsplit hfirst =>
        obtain ⟨first, hr⟩ := exists_isFirst_of_subset hsub hfirst
        exact hnone first part (.dotted top hno hurn hdot hsplit hr)

end Without

variable (ho : o.NamesDiffer)
include ho

theorem AddressesWhole.of_mem {key : String} (h : AddressesWhole r name key) (hkey : key ∈ o.keys) :
    AddressesWhole o name key :=
  Object.isFirst_of_forall hkey h.prop fun _ hk hlower =>
    ho.key_eq hk hkey (hlower.trans h.prop.symm)

include hsub

theorem AddressesPart.of_mem (hflat : ∀ outer ∈ r.keys, ∀ inner ∈ r.keys, ¬ Encloses outer inner)
    {key part : String} (h : AddressesPart r name key part) (hkey : key ∈ o.keys) :
    AddressesPart o name key part := by
  cases h with
  | extension hno hurn hfirst hsplit =>
      refine .extension (not_addressesWhole_of_subset hsub hno) hurn ?_ hsplit
      refine Object.isFirst_of_forall hkey hfirst.prop fun k hk hprop => ?_
      obtain ⟨hkurn, s, hs⟩ := hprop
      refine ho.key_eq hk hkey ?_
      exact lower_eq_of_starts hflat (hsub hk) hfirst.mem hkurn hfirst.prop.1 hs hsplit
  | dotted top hno hurn hdot hsplit hfirst =>
      refine .dotted top (not_addressesWhole_of_subset hsub hno) hurn hdot hsplit ?_
      refine Object.isFirst_of_forall hkey hfirst.prop fun k hk hprop => ?_
      exact ho.key_eq hk hkey (hprop.trans hfirst.prop.symm)

/-- A name finds what it addressed where the key is still there, if no key encloses another. -/
theorem address?_of_mem (hflat : ∀ outer ∈ r.keys, ∀ inner ∈ r.keys, ¬ Encloses outer inner)
    (hname : ∀ c ∈ name.toList, Text.IsPlain c) {a : Address} (h : address? r name = some a)
    (hkey : a.key ∈ o.keys) : address? o name = some a := by
  obtain ⟨key, _ | part⟩ := a
  · have hwhole := (address?_eq_whole_iff hname).mp h
    exact (address?_eq_whole_iff hname).mpr (hwhole.of_mem ho hkey)
  · have hpart := (address?_eq_part_iff hname).mp h
    exact (address?_eq_part_iff hname).mpr (hpart.of_mem hsub ho hflat hkey)

end Fewer

/-! ### Keys that are missing -/

/-- Whether the keys of a resource and of the objects in its members differ in more than case, its keys
have no point but in schema URNs, and no schema URN among them is, ignoring case, another one followed by
a colon and more. -/
structure IsUnambiguous (r : Object) : Prop where
  names : r.NamesDiffer
  members : ∀ m ∈ r, ∀ o ∈ objects m.2, o.NamesDiffer
  points : ∀ key ∈ r.keys, ¬ IsUrnName (Text.lower key) → '.' ∉ key.toList
  schemas : ∀ outer ∈ r.keys, ∀ inner ∈ r.keys, IsUrnName (Text.lower outer) →
    ∀ s, s ≠ "" → Text.lower inner ≠ Text.lower outer ++ ":" ++ s

/-- Whether no key of a resource is, ignoring case, another one that is a schema URN, followed by a colon
alone. -/
def HasNoBareColon (r : Object) : Prop :=
  ∀ outer ∈ r.keys, ∀ inner ∈ r.keys, IsUrnName (Text.lower outer) →
    Text.lower inner ≠ Text.lower outer ++ ":"

section Missing

variable {r o : Object} {name : String} (hr : IsUnambiguous r) (hcolon : HasNoBareColon r)
include hr hcolon

theorem IsUnambiguous.flat : ∀ outer ∈ r.keys, ∀ inner ∈ r.keys, ¬ Encloses outer inner := by
  rintro outer houter inner hinner ⟨hurn, s, hs⟩
  by_cases hempty : s = ""
  · rw [hempty, String.append_empty] at hs
    exact hcolon outer houter inner hinner hurn hs
  · exact hr.schemas outer houter inner hinner hurn s hempty hs

variable (hsub : o.keys ⊆ r.keys)
include hsub

/-- A name of a whole member addresses no part where there are fewer keys. -/
theorem not_addressesPart_of_whole {key : String} (h : AddressesWhole r name key) (k part : String) :
    ¬ AddressesPart o name k part := by
  have hlower : Text.lower key = name := h.prop
  intro hpart
  cases hpart with
  | extension _ _ hfirst hsplit =>
      exact hr.flat hcolon k (hsub hfirst.mem) key h.mem ⟨hfirst.prop.1, part, hlower.trans hsplit⟩
  | dotted top _ hurn _ hsplit _ =>
      refine hr.points key h.mem (hlower ▸ hurn) (Text.mem_lower_point_iff.mp ?_)
      rw [hlower, hsplit]
      simp

/-- A name of a part finds the part of no other member. -/
theorem key_eq_of_addressesPart {key k part part' : String} (h : AddressesPart r name key part)
    (h' : AddressesPart o name k part') : k = key := by
  cases h with
  | extension _ hurn hfirst hsplit =>
      cases h' with
      | dotted _ _ hnot => exact absurd hurn hnot
      | extension _ _ hfirst' hsplit' =>
          have hk := hsub hfirst'.mem
          refine hr.names.key_eq hk hfirst.mem ?_
          exact lower_eq_of_starts (hr.flat hcolon) hk hfirst.mem hfirst'.prop.1 hfirst.prop.1 hsplit'
            hsplit
  | dotted top _ hnot hdot hsplit hfirst =>
      cases h' with
      | extension _ hurn => exact absurd hurn hnot
      | dotted top' _ _ hdot' hsplit' hfirst' =>
          have htop := (dotted_unique hdot' hdot (hsplit'.symm.trans hsplit)).1
          have hlower : Text.lower k = Text.lower key := by
            rw [hfirst'.prop, htop, hfirst.prop]
          exact hr.names.key_eq (hsub hfirst'.mem) hfirst.mem hlower

/-- A name whose key is missing addresses nothing. -/
theorem address?_of_not_mem (hname : ∀ c ∈ name.toList, Text.IsPlain c) {a : Address}
    (h : address? r name = some a) (hkey : a.key ∉ o.keys) : address? o name = none := by
  rw [Option.eq_none_iff_forall_ne_some]
  obtain ⟨key, _ | part⟩ := a
  · have hwhole := (address?_eq_whole_iff hname).mp h
    rintro ⟨k, _ | part⟩ ha
    · have hk := (address?_eq_whole_iff hname).mp ha
      have hlower : Text.lower k = Text.lower key := hk.prop.trans hwhole.prop.symm
      exact hkey (hr.names.key_eq (hsub hk.mem) hwhole.mem hlower ▸ hk.mem)
    · exact not_addressesPart_of_whole hr hcolon hsub hwhole k part
        ((address?_eq_part_iff hname).mp ha)
  · have hpart := (address?_eq_part_iff hname).mp h
    rintro ⟨k, _ | part'⟩ ha
    · exact not_addressesWhole_of_subset hsub hpart.not_whole k ((address?_eq_whole_iff hname).mp ha)
    · have hpart' := (address?_eq_part_iff hname).mp ha
      exact hkey (key_eq_of_addressesPart hr hcolon hsub hpart hpart' ▸ hpart'.isFirst.mem)

/-- Names address what they addressed with the keys that are still there, and nothing else. -/
theorem addresses_of_subset (ho : o.NamesDiffer) {names : List String}
    (hnames : ∀ name ∈ names, ∀ c ∈ name.toList, Text.IsPlain c) :
    addresses o names = (addresses r names).filter fun a => o.keys.contains a.key := by
  rw [addresses, addresses, List.filter_filterMap]
  refine List.filterMap_congr fun name hname => ?_
  have hplain := hnames name hname
  cases h : address? r name with
  | none => exact address?_eq_none_of_subset hsub hplain h
  | some a =>
      by_cases hkey : a.key ∈ o.keys
      · rw [address?_of_mem hsub ho (hr.flat hcolon) hplain h hkey]
        exact (if_pos (by simpa using hkey)).symm
      · rw [address?_of_not_mem hr hcolon hsub hplain h hkey]
        exact (if_neg (by simpa using hkey)).symm

end Missing

end Projection
end ScimQuery
