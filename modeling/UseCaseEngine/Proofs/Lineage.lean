import UseCaseEngine.Example.Shop
import UseCaseEngine.Proofs.Preemption

/-!
# The order of message types

Types are compared by name (`is_a`), along what they extend (`ancestry`). That makes `isA` what a
hierarchy suggests only where names can be trusted: in a *family*, which holds all that its types
extend and in which no two types share a name. There a type is an instance of another exactly when
the other one's ancestry is the end of its own, so that `isA` is an order and what a type extends
is a chain.

* `ancestry_isSuffix_of_mem`: everything that a type extends brings its own ancestry along.
* `MessageType.IsFamily.isA_iff_isSuffix`: in a family, `isA` compares ancestries.
* `Step.expects_of_isSuffix`: a step that expects a type expects what extends it.
* **`lineage`**: the order of a family, and the steps that are found for a type and its descendants.
-/

namespace UseCaseEngine

namespace MessageType

/-! ## Ancestries -/

/-- A type comes first in its ancestry. -/
theorem ancestry_eq_cons (a : MessageType) : ∃ rest, a.ancestry = a :: rest := by
  cases a with
  | root n => exact ⟨[], rfl⟩
  | extending n p => exact ⟨p.ancestry, rfl⟩

theorem mem_ancestry_self (a : MessageType) : a ∈ a.ancestry := by
  obtain ⟨rest, hrest⟩ := a.ancestry_eq_cons
  rw [hrest]
  exact List.mem_cons_self

/-- **What a type extends** brings its own ancestry along. -/
theorem ancestry_isSuffix_of_mem {a b : MessageType} (h : b ∈ a.ancestry) :
    b.ancestry <:+ a.ancestry := by
  induction a with
  | root n =>
    obtain rfl : b = root n := List.mem_singleton.mp h
    exact List.suffix_rfl
  | extending n p ih =>
    rcases List.mem_cons.mp h with rfl | h
    · exact List.suffix_rfl
    · exact (ih h).trans (List.suffix_cons _ _)

theorem mem_ancestry_iff {a b : MessageType} : b ∈ a.ancestry ↔ b.ancestry <:+ a.ancestry :=
  ⟨ancestry_isSuffix_of_mem, fun h => h.subset b.mem_ancestry_self⟩

/-- The ancestry of a type tells which type it is. -/
theorem ancestry_injective {a b : MessageType} (h : a.ancestry = b.ancestry) : a = b := by
  obtain ⟨rest, hrest⟩ := a.ancestry_eq_cons
  obtain ⟨rest', hrest'⟩ := b.ancestry_eq_cons
  rw [hrest, hrest'] at h
  exact (List.cons.inj h).1

/-! ## Families -/

/-- The types come with all they extend, and none of them share a name. -/
structure IsFamily (F : Set MessageType) : Prop where
  parent_mem : ∀ a ∈ F, ∀ p, a.parent? = some p → p ∈ F
  eq_of_name_eq : ∀ a ∈ F, ∀ b ∈ F, a.name = b.name → a = b

namespace IsFamily

variable {F : Set MessageType} (hF : IsFamily F)
include hF

theorem ancestry_subset {a : MessageType} (ha : a ∈ F) : ∀ b ∈ a.ancestry, b ∈ F := by
  intro b hb
  induction a with
  | root n =>
    obtain rfl : b = root n := List.mem_singleton.mp hb
    exact ha
  | extending n p ih =>
    rcases List.mem_cons.mp hb with rfl | hb
    · exact ha
    · exact ih (hF.parent_mem _ ha p rfl) hb

/-- In a family, the name of a type stands for the type. -/
theorem isA_iff_mem {a b : MessageType} (ha : a ∈ F) (hb : b ∈ F) :
    a.isA b = true ↔ b ∈ a.ancestry := by
  rw [isA_iff, List.mem_map]
  constructor
  · rintro ⟨b', hb', hname⟩
    obtain rfl := hF.eq_of_name_eq b' (hF.ancestry_subset ha b' hb') b hb hname
    exact hb'
  · intro h
    exact ⟨b, h, rfl⟩

/-- **In a family, `isA` compares ancestries.** -/
theorem isA_iff_isSuffix {a b : MessageType} (ha : a ∈ F) (hb : b ∈ F) :
    a.isA b = true ↔ b.ancestry <:+ a.ancestry :=
  (hF.isA_iff_mem ha hb).trans mem_ancestry_iff

theorem isA_trans {a b c : MessageType} (ha : a ∈ F) (hb : b ∈ F) (hc : c ∈ F)
    (hab : a.isA b = true) (hbc : b.isA c = true) : a.isA c = true := by
  rw [hF.isA_iff_isSuffix ha hb] at hab
  rw [hF.isA_iff_isSuffix hb hc] at hbc
  exact (hF.isA_iff_isSuffix ha hc).mpr (hbc.trans hab)

theorem isA_antisymm {a b : MessageType} (ha : a ∈ F) (hb : b ∈ F) (hab : a.isA b = true)
    (hba : b.isA a = true) : a = b := by
  rw [hF.isA_iff_isSuffix ha hb] at hab
  rw [hF.isA_iff_isSuffix hb ha] at hba
  have hlength := le_antisymm hba.length_le hab.length_le
  exact ancestry_injective (hba.eq_of_length hlength)

/-- Of two types that a type of a family extends, one extends the other one. -/
theorem isA_total {a b c : MessageType} (ha : a ∈ F) (hb : b ∈ a.ancestry) (hc : c ∈ a.ancestry) :
    b.isA c = true ∨ c.isA b = true := by
  have hbF := hF.ancestry_subset ha b hb
  have hcF := hF.ancestry_subset ha c hc
  rw [hF.isA_iff_isSuffix hbF hcF, hF.isA_iff_isSuffix hcF hbF]
  exact List.suffix_or_suffix_of_suffix (mem_ancestry_iff.mp hc) (mem_ancestry_iff.mp hb)

/-- A family is ordered. -/
theorem isPartialOrder : IsPartialOrder F fun a b => a.1.isA b.1 = true where
  refl a := isA_self a.1
  trans a b c := hF.isA_trans a.2 b.2 c.2
  antisymm a b hab hba := Subtype.ext (hF.isA_antisymm a.2 b.2 hab hba)

/-- What a type of a family extends is a chain. -/
theorem isLinearOrder {a : MessageType} (ha : a ∈ F) :
    IsLinearOrder {b // b ∈ a.ancestry} fun b c => b.1.isA c.1 = true :=
  have hmem (b : {b // b ∈ a.ancestry}) : b.1 ∈ F := hF.ancestry_subset ha b.1 b.2
  { refl b := isA_self b.1
    trans b c d := hF.isA_trans (hmem b) (hmem c) (hmem d)
    antisymm b c hbc hcb := Subtype.ext (hF.isA_antisymm (hmem b) (hmem c) hbc hcb)
    total b c := hF.isA_total ha b.2 c.2 }

end IsFamily

end MessageType

/-! ## Steps and the types they expect -/

section Steps

variable {C : Code} {t d : MessageType}

/-- **A step that expects a type** expects every type whose ancestry ends with that of the type. The
type that the step was declared with need not be related to either of them but by its name. -/
theorem Step.expects_of_isSuffix {s : Step C} (h : t.ancestry <:+ d.ancestry)
    (hs : s.expects t = true) : s.expects d = true := by
  unfold Step.expects at hs ⊢
  split
  · rfl
  · rename_i expected hexpected
    rw [hexpected] at hs
    rw [MessageType.isA_iff] at hs ⊢
    exact (h.map MessageType.name).subset hs

theorem Step.fits_of_isSuffix {s : Step C} {c : Cursor} {actor : String} {scope : Scope}
    (h : t.ancestry <:+ d.ancestry) (hs : s.fits c actor t scope = true) :
    s.fits c actor d scope = true := by
  unfold Step.fits at hs ⊢
  rw [Bool.and_eq_true] at hs ⊢
  exact ⟨hs.1, Step.expects_of_isSuffix h hs.2⟩

/-- With guards that change nothing, everything that is found for a type is found for a type whose
ancestry ends with its own. -/
theorem passing_sublist_of_isSuffix {σ : Type} {eval : C.Guard → StateM σ Bool} {model : Model C}
    {c : Cursor} {actor : String} {scope : Scope} {w : σ} (h : t.ancestry <:+ d.ancestry)
    (hquiet : ∀ g, model.HasGuard g → (eval g w).2 = w) :
    (passing eval model c actor t scope w).Sublist (passing eval model c actor d scope w) := by
  rw [passing_of_quiet hquiet, passing_of_quiet hquiet]
  refine List.monotone_filter_right _ fun s hs => ?_
  rw [Bool.and_eq_true] at hs ⊢
  exact ⟨Step.fits_of_isSuffix h hs.1, hs.2⟩

end Steps

/-- **The order of message types.** A type is an instance of another exactly when the other's name
occurs among the names of its ancestry. In a family that is an order, in which everything that a
type extends is a chain. A step that a message of some type fits is fitted by messages of all types
that are instances of it, be it an ordinary step or one that handles failures; and where guards
change nothing, the steps that are found for the type are found for all those types, too. -/
theorem lineage {F : Set MessageType} (hF : MessageType.IsFamily F) :
    (∀ a b : MessageType, a.isA b = true ↔ b.name ∈ a.ancestry.map MessageType.name) ∧
      (IsPartialOrder F fun a b => a.1.isA b.1 = true) ∧
      (∀ a ∈ F, (∀ b ∈ F, a.isA b = true ↔ b ∈ a.ancestry) ∧ (∀ b ∈ a.ancestry, b ∈ F) ∧
        IsLinearOrder {b // b ∈ a.ancestry} fun b c => b.1.isA c.1 = true) ∧
      ∀ d ∈ F, ∀ t ∈ F, d.isA t = true → ∀ {C : Code},
        (∀ s : Step C, (s.expects t = true → s.expects d = true) ∧ ∀ c actor scope,
          s.fits c actor t scope = true → s.fits c actor d scope = true) ∧
        ∀ {σ : Type} (eval : C.Guard → StateM σ Bool) (model : Model C) (w : σ),
          (∀ g, model.HasGuard g → (eval g w).2 = w) → ∀ c actor scope,
            (passing eval model c actor t scope w).Sublist
              (passing eval model c actor d scope w) := by
  refine ⟨MessageType.isA_iff, hF.isPartialOrder, fun a ha => ?_, fun d hd t ht hisA C => ?_⟩
  · exact ⟨fun b hb => hF.isA_iff_mem ha hb, hF.ancestry_subset ha, hF.isLinearOrder ha⟩
  · have hsuffix := (hF.isA_iff_isSuffix hd ht).mp hisA
    refine ⟨fun s => ?_, fun eval model w hquiet c actor scope => ?_⟩
    · exact ⟨Step.expects_of_isSuffix hsuffix, fun c actor scope => Step.fits_of_isSuffix hsuffix⟩
    · exact passing_sublist_of_isSuffix hsuffix hquiet

/-- A name that two types share breaks the order: what extends one of them is an instance of what
only the other one extends. -/
example :
    let bill : MessageType := .extending "Bill" (.root "Letter")
    let invoice : MessageType := .extending "Invoice" (.root "Bill")
    invoice.isA bill = true ∧ bill.isA (.root "Letter") = true ∧
      invoice.isA (.root "Letter") = false := by
  decide +kernel

namespace Shop

/-- The type of the failure of a payment that is declined because the account is empty. -/
def overdrawnType : MessageType := .extending "Overdrawn" declinedType

/-- The failures of payments, with the root of all failures. -/
def failureTypes : List MessageType := [.error, declinedType, overdrawnType, brokenType]

theorem isFamily_failureTypes : MessageType.IsFamily {t | t ∈ failureTypes} where
  parent_mem := by
    have hall : ∀ a ∈ failureTypes, ∀ p ∈ a.parent?, p ∈ failureTypes := by decide +kernel
    exact hall
  eq_of_name_eq := by
    have hall : ∀ a ∈ failureTypes, ∀ b ∈ failureTypes, a.name = b.name → a = b := by
      decide +kernel
    exact hall

end Shop

/-- A payment from an empty account is explained by the step that explains declined payments, also
while the shop waits for the payment. -/
theorem Shop.lineage_overdrawn :
    let model := application.model ()
    let eval : (code signature).Guard → StateM Unit Bool := fun _ => pure true
    let c : Cursor := { latest := some ⟨0⟩, frames := [⟨⟨1⟩, ⟨0⟩⟩] }
    overdrawnType.isA declinedType = true ∧ declinedType.isA overdrawnType = false ∧
      (passing eval model c "user" declinedType .failure ()).map (·.name) = ["Explain"] ∧
      (passing eval model c "user" declinedType .failure ()).Sublist
        (passing eval model c "user" overdrawnType .failure ()) := by
  intro model eval c
  have hisA : overdrawnType.isA declinedType = true := by decide +kernel
  obtain ⟨-, -, -, hsteps⟩ := lineage isFamily_failureTypes
  obtain ⟨-, hpassing⟩ := hsteps overdrawnType (by decide +kernel) declinedType (by decide +kernel)
    hisA
  refine ⟨hisA, by decide +kernel, by decide +kernel, ?_⟩
  exact hpassing eval model () (fun _ _ => rfl) c "user" .failure

end UseCaseEngine
