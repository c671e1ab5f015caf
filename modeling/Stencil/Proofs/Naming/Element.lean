import Mathlib.Data.List.TakeDrop
import Mathlib.Data.List.TakeWhile
import Stencil.Proofs.Text.Trimming
import Stencil.Naming.Item
import Stencil.Value.Basic

/-!
# The element of a displayed collection

The display name of a collection shows the type names of its members in angle brackets, and the
element type is read back from there, also where the members' types are collections themselves: the
brackets of a type are balanced, so a comma in one is never taken for the comma behind it.
-/

namespace Stencil

/-- A type name that is not mistaken for an application: some text without white space, angle
brackets and commas. -/
def IsTypeName (n : String) : Prop :=
  n.toList ≠ [] ∧ ∀ c ∈ n.toList, Text.isBlank c = false ∧ c ≠ '<' ∧ c ≠ '>' ∧ c ≠ ','

instance (n : String) : Decidable (IsTypeName n) :=
  @instDecidableAnd _ _ inferInstance (List.decidableBAll _ n.toList)

namespace Naming

theorem arguments?_applied {head args : List Char} (hn : head ≠ []) (hh : '<' ∉ head)
    (ha : args ≠ []) : arguments? (head ++ '<' :: (args ++ ['>'])) = some args := by
  have hp : ∀ c ∈ head, (c != '<') = true := fun c hc => by
    rw [bne_iff_ne]
    rintro rfl
    exact hh hc
  obtain ⟨c, r, rfl⟩ := List.exists_cons_of_ne_nil hn
  have hs : (c :: r ++ '<' :: (args ++ ['>'])).span (· != '<') = (c :: r, '<' :: (args ++ ['>'])) := by
    rw [List.span_eq_takeWhile_dropWhile, List.takeWhile_append_of_pos hp,
      List.dropWhile_append_of_pos hp, List.takeWhile_cons_of_neg (by decide),
      List.dropWhile_cons_of_neg (by decide), List.append_nil]
  have hr : ((args ++ ['>']).reverse.dropWhile (· != '>')).tail.reverse = args := by
    rw [List.reverse_append, List.reverse_singleton, List.singleton_append,
      List.dropWhile_cons_of_neg (by decide), List.tail_cons, List.reverse_reverse]
  rw [arguments?, hs]
  simp only [hr]

@[simp]
theorem afterComma_open (depth : Nat) (r : List Char) :
    afterComma depth ('<' :: r) = afterComma (depth + 1) r := rfl

@[simp]
theorem afterComma_close (depth : Nat) (r : List Char) :
    afterComma (depth + 1) ('>' :: r) = afterComma depth r := rfl

@[simp]
theorem afterComma_comma_inside (depth : Nat) (r : List Char) :
    afterComma (depth + 1) (',' :: r) = afterComma (depth + 1) r := rfl

@[simp]
theorem afterComma_comma (r : List Char) : afterComma 0 (',' :: r) = some r := rfl

theorem afterComma_append_bare {s : List Char} (h : ∀ c ∈ s, c ≠ '<' ∧ c ≠ '>' ∧ c ≠ ',')
    (depth : Nat) (r : List Char) : afterComma depth (s ++ r) = afterComma depth r := by
  induction s with
  | nil => rfl
  | cons c s ih =>
    obtain ⟨h₁, h₂, h₃⟩ := h c List.mem_cons_self
    rw [List.cons_append, afterComma, if_neg h₁, if_neg h₂, if_neg fun hc => h₃ hc.1]
    exact ih fun d hd => h d (List.mem_cons_of_mem _ hd)

/-! ## Types inside types -/

/-- A name that displayed types are made of: it is not empty and has no white space around it, and
no angle bracket or comma in it. -/
structure BareName where
  text : String
  ne_nil : text.toList ≠ []
  trimmed : Text.trim text.toList = text.toList
  bare : ∀ c ∈ text.toList, c ≠ '<' ∧ c ≠ '>' ∧ c ≠ ','

/-- A displayed type: a name by itself, or one applied to one type or to two. -/
inductive TypeTerm
  | name (n : BareName)
  | of (n : BareName) (a : TypeTerm)
  | ofPair (n : BareName) (a b : TypeTerm)

def TypeTerm.text : TypeTerm → String
  | name n => n.text
  | of n a => n.text ++ "<" ++ a.text ++ ">"
  | ofPair n a b => n.text ++ "<" ++ a.text ++ "," ++ b.text ++ ">"

/-- The text displays a type. -/
def IsTypeText (s : String) : Prop := ∃ t : TypeTerm, t.text = s

namespace BareName

def ofTypeName {n : String} (hn : IsTypeName n) : BareName where
  text := n
  ne_nil := hn.1
  trimmed := Text.trim_of_no_blank fun c hc => (hn.2 c hc).1
  bare c hc := (hn.2 c hc).2

variable (n : BareName)

theorem tight : Text.Tight n.text.toList := Text.tight_of_trim_eq n.trimmed n.ne_nil

/-- What is displayed where the name is applied to arguments. -/
def applied (args : List Char) : List Char := n.text.toList ++ '<' :: (args ++ ['>'])

theorem tight_applied (args : List Char) : Text.Tight (n.applied args) where
  head := by
    obtain ⟨c, r, e, hc⟩ := n.tight.head
    exact ⟨c, r ++ '<' :: (args ++ ['>']), by rw [applied, e]; rfl, hc⟩
  last := ⟨n.text.toList ++ '<' :: args, '>', by simp [applied], rfl⟩

/-- Along an application the depth rises by one and falls by one. -/
theorem afterComma_applied (args : List Char) (depth : Nat) (r : List Char) :
    afterComma depth (n.applied args ++ r) = afterComma (depth + 1) (args ++ '>' :: r) := by
  rw [applied, List.append_assoc, afterComma_append_bare n.bare, List.cons_append, afterComma_open,
    List.append_assoc, List.singleton_append]

theorem elementType_applied {args : List Char} (ha : args ≠ []) {s : String}
    (hs : s.toList = n.applied args) :
    elementType s = String.ofList (Text.trim ((afterComma 0 args).getD args)) := by
  have hn : '<' ∉ n.text.toList := fun h => (n.bare '<' h).1 rfl
  rw [elementType, hs, applied, arguments?_applied n.ne_nil hn ha]

end BareName

namespace TypeTerm

theorem toList_of (n : BareName) (a : TypeTerm) :
    (of n a).text.toList = n.applied a.text.toList := by
  simp only [text, String.toList_append, List.append_assoc]
  rfl

theorem toList_ofPair (n : BareName) (a b : TypeTerm) :
    (ofPair n a b).text.toList = n.applied (a.text.toList ++ ',' :: b.text.toList) := by
  simp only [text, BareName.applied, String.toList_append, List.append_assoc, List.cons_append]
  rfl

theorem tight_text : ∀ t : TypeTerm, Text.Tight t.text.toList
  | name n => n.tight
  | of n a => toList_of n a ▸ n.tight_applied _
  | ofPair n a b => toList_ofPair n a b ▸ n.tight_applied _

/-- No comma of a type is outside angle brackets, and behind the type the depth is as before. -/
theorem afterComma_text (t : TypeTerm) (depth : Nat) (r : List Char) :
    afterComma depth (t.text.toList ++ r) = afterComma depth r := by
  induction t generalizing depth r with
  | name n => exact afterComma_append_bare n.bare depth r
  | of n a ih => rw [toList_of, n.afterComma_applied, ih, afterComma_close]
  | ofPair n a b iha ihb =>
    rw [toList_ofPair, n.afterComma_applied, List.append_assoc, iha, List.cons_append,
      afterComma_comma_inside, ihb, afterComma_close]

theorem elementType_of (n : BareName) (a : TypeTerm) : elementType (of n a).text = a.text := by
  have hc : afterComma 0 a.text.toList = none := by
    have := a.afterComma_text 0 []
    rwa [List.append_nil] at this
  rw [n.elementType_applied a.tight_text.ne_nil (toList_of n a), hc, Option.getD_none,
    a.tight_text.trim, String.ofList_toList]

theorem elementType_ofPair (n : BareName) (a b : TypeTerm) :
    elementType (ofPair n a b).text = b.text := by
  rw [n.elementType_applied (by simp) (toList_ofPair n a b), a.afterComma_text, afterComma_comma,
    Option.getD_some, b.tight_text.trim, String.ofList_toList]

end TypeTerm

theorem isTypeText_of_isTypeName {n : String} (hn : IsTypeName n) : IsTypeText n :=
  ⟨.name (.ofTypeName hn), rfl⟩

/-! ## Collections -/

section

variable (head : String) (hh : IsTypeName head) {s t : String}
include hh

theorem elementType_one (hs : IsTypeText s) : elementType (head ++ "<" ++ s ++ ">") = s := by
  obtain ⟨a, rfl⟩ := hs
  exact TypeTerm.elementType_of (.ofTypeName hh) a

theorem elementType_two (hs : IsTypeText s) (ht : IsTypeText t) :
    elementType (head ++ "<" ++ s ++ "," ++ t ++ ">") = t := by
  obtain ⟨a, rfl⟩ := hs
  obtain ⟨b, rfl⟩ := ht
  exact TypeTerm.elementType_ofPair (.ofTypeName hh) a b

end

/-- The element type of a list of items with a plain type name. -/
theorem elementType_list {n : String} (hn : IsTypeName n) : elementType ("List<" ++ n ++ ">") = n :=
  elementType_one "List" (by decide) (isTypeText_of_isTypeName hn)

theorem itemType_list {n : String} (hn : IsTypeName n) (ho : n ≠ objectType) (list : String) :
    itemType list ("List<" ++ n ++ ">") = n := by
  simp only [itemType, elementType_list hn]
  exact if_pos ho

end Naming

namespace Value

open Naming

/-- The name of the value's type displays a type; for all values but objects it always does. -/
def HasTypeText (v : Value) : Prop := ∀ t, v.objectType? = some t → IsTypeText t.name

theorem HasTypeText.typeName {v : Value} (h : v.HasTypeText) : IsTypeText v.typeName := by
  cases v with
  | object t _ => exact h t rfl
  | _ =>
    simp only [Value.typeName]
    exact isTypeText_of_isTypeName (by decide)

/-- The element type of an application is its last argument, whatever types are nested in the
arguments. So the element type read back from the display name of a collection is the type name of
the first item, of the component, or of the first value. -/
theorem elementType_displayName :
    (∀ n a, elementType (TypeTerm.of n a).text = a.text) ∧
    (∀ n a b, elementType (TypeTerm.ofPair n a b).text = b.text) ∧
    (∀ v rest, v.HasTypeText → elementType (list (v :: rest)).displayName = v.typeName) ∧
    (∀ component items, IsTypeText component.name →
      elementType (array component items).displayName = component.name) ∧
    ∀ k v rest, k.HasTypeText → v.HasTypeText →
      elementType (map ((k, v) :: rest)).displayName = v.typeName :=
  ⟨TypeTerm.elementType_of, TypeTerm.elementType_ofPair,
    fun _ _ hv => elementType_one "List" (by decide) hv.typeName,
    fun _ _ hc => elementType_one "Array" (by decide) hc,
    fun _ _ _ hk hv => elementType_two "Map" (by decide) hk.typeName hv.typeName⟩

/-- The first key of a map is missing, and its first value has a type of two arguments. -/
theorem elementType_displayName_page :
    let page := Descriptor.record "Page<User,List<Order>>" 0
    IsTypeText page.name ∧ HasTypeText null ∧ HasTypeText (object page 0) ∧
      elementType "Page<User,List<Order>>" = "List<Order>" ∧
      elementType (list [null]).displayName = objectType ∧
      elementType (array page []).displayName = page.name ∧
      elementType (map [(null, object page 0)]).displayName = page.name := by
  intro page
  have hp : IsTypeName "Page" := by decide
  have hu : IsTypeName "User" := by decide
  have hl : IsTypeName "List" := by decide
  have ho : IsTypeName "Order" := by decide
  let user : TypeTerm := .name (.ofTypeName hu)
  let orders : TypeTerm := .of (.ofTypeName hl) (.name (.ofTypeName ho))
  have hpage : IsTypeText page.name := ⟨.ofPair (.ofTypeName hp) user orders, rfl⟩
  have hnull : HasTypeText null := fun _ h => nomatch h
  have hobject : HasTypeText (object page 0) := fun _ h => Option.some.inj h ▸ hpage
  obtain ⟨-, hpair, hlist, harray, hmap⟩ := elementType_displayName
  exact ⟨hpage, hnull, hobject, hpair (.ofTypeName hp) user orders, hlist null [] hnull,
    harray page [] hpage, hmap null (object page 0) [] hnull hobject⟩

end Value

end Stencil
