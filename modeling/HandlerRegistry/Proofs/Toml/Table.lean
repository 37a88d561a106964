import HandlerRegistry.Toml.Document
import Mathlib.Data.List.Nodup

/-! # A key of a table has one value

Whatever the lines of a document add, they change the value of a key that is there or put a new key
at the end. So the root table of a document names no key twice, and what is found for a key does not
depend on the order in which the entries are visited. -/

namespace HandlerRegistry.Toml
set_option autoImplicit false

/-- No key occurs twice in a table. -/
def Distinct (entries : Entries) : Prop := (entries.map Prod.fst).Nodup

/-! ## Changes of a table -/

theorem keys_changeKey {key : String} {change : Option Value → Option Value}
    {entries result : Entries} (h : changeKey key change entries = some result) :
    result.map Prod.fst = entries.map Prod.fst ∨
      key ∉ entries.map Prod.fst ∧ result.map Prod.fst = entries.map Prod.fst ++ [key] := by
  induction entries generalizing result with
  | nil =>
    obtain ⟨value, -, rfl⟩ := Option.map_eq_some_iff.mp h
    exact .inr ⟨List.not_mem_nil, rfl⟩
  | cons entry rest ih =>
    obtain ⟨name, value⟩ := entry
    rw [changeKey] at h
    by_cases hn : name = key
    · rw [if_pos hn] at h
      obtain ⟨changed, -, rfl⟩ := Option.map_eq_some_iff.mp h
      exact .inl rfl
    · rw [if_neg hn] at h
      obtain ⟨others, ho, rfl⟩ := Option.map_eq_some_iff.mp h
      obtain he | ⟨hm, he⟩ := ih ho
      · exact .inl (congrArg (name :: ·) he)
      · refine .inr ⟨?_, congrArg (name :: ·) he⟩
        exact List.not_mem_cons_of_ne_of_not_mem (fun e => hn e.symm) hm

theorem Distinct.changeKey {key : String} {change : Option Value → Option Value}
    {entries result : Entries} (distinct : Distinct entries)
    (h : changeKey key change entries = some result) : Distinct result := by
  rw [Distinct] at distinct ⊢
  obtain he | ⟨hm, he⟩ := keys_changeKey h
  · rwa [he]
  · rw [he]
    exact distinct.append (List.nodup_singleton key) (List.disjoint_singleton.mpr hm)

/-- A change of the table at a path keeps the keys of the table above distinct; at the end of the
path it has to do so itself. -/
theorem Distinct.changeAt {route : Route} {change : TableForm → Entries → Option Entries}
    (hc : ∀ {form : TableForm} {entries result : Entries}, Distinct entries →
      change form entries = some result → Distinct result)
    {path : List String} {form : TableForm} {entries result : Entries}
    (distinct : Distinct entries) (h : changeAt route change path form entries = some result) :
    Distinct result := by
  cases path with
  | nil => exact hc distinct h
  | cons key path => exact distinct.changeKey h

theorem Distinct.addPair {key : List String × String} {value : Value} {form : TableForm}
    {entries result : Entries} (distinct : Distinct entries)
    (h : addPair key value form entries = some result) : Distinct result := by
  refine distinct.changeAt (fun {form entries result} hd ha => ?_) h
  by_cases hf : (form = .dotted) = (key.1 = [])
  · rw [if_pos hf] at ha
    cases ha
  · rw [if_neg hf] at ha
    exact hd.changeKey ha

/-! ## Documents -/

theorem Distinct.add {reading next : Reading} {statement : Statement}
    (distinct : Distinct reading.root) (h : reading.add statement = some next) :
    Distinct next.root := by
  cases statement with
  | pair key value =>
    obtain ⟨root, hr, rfl⟩ := Option.map_eq_some_iff.mp h
    exact distinct.changeAt Distinct.addPair hr
  | header key =>
    obtain ⟨root, hr, rfl⟩ := Option.map_eq_some_iff.mp h
    exact distinct.changeAt Distinct.changeKey hr
  | element key =>
    obtain ⟨root, hr, rfl⟩ := Option.map_eq_some_iff.mp h
    exact distinct.changeAt Distinct.changeKey hr

theorem Distinct.addAll {reading last : Reading} {statements : List Statement}
    (distinct : Distinct reading.root) (h : reading.addAll statements = some last) :
    Distinct last.root := by
  induction statements generalizing reading with
  | nil =>
    obtain rfl : reading = last := Option.some.inj h
    exact distinct
  | cons statement rest ih =>
    obtain ⟨next, hn, hr⟩ := Option.bind_eq_some_iff.mp h
    exact ih (distinct.add hn) hr

theorem distinct_readDocument {text : String} {entries : Entries}
    (h : readDocument text = some entries) : Distinct entries := by
  rw [readDocument] at h
  split at h
  · cases h
  · obtain ⟨last, hl, rfl⟩ := Option.map_eq_some_iff.mp h
    have hn : Distinct (⟨[], []⟩ : Reading).root := List.nodup_nil
    exact hn.addAll hl

end HandlerRegistry.Toml
