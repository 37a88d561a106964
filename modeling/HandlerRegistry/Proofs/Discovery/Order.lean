import HandlerRegistry.Proofs.Discovery.Denotes

/-! # The order of a listing

A directory lists its entries in an order of its own. The handlers collected from a list of entries,
and whether there are any, depend on which entries they are, not on their order. So does the failure,
if it has only one reason: an entry whose name is refused, or two entries that clash. The paths of a
clash are named in their own order, whichever was seen first (`listing_order_irrelevant`). -/

namespace HandlerRegistry.Discovery
set_option autoImplicit false

/-! ## Entries that clash -/

/-- An entry is no reason for a failure by itself: it is hidden or has an identifier. -/
def Acceptable (tree : FileTree) (directory : Path) (name : Name) : Prop :=
  ∃ id?, identify tree (directory.join name) name = .ok id?

/-- Two entries at different positions of a list have the same identifier. -/
structure Clash (tree : FileTree) (directory : Path) (names : List Name) (a b : Name)
    (id : Identifier) : Prop where
  first : identify tree (directory.join a) a = .ok (some id)
  second : identify tree (directory.join b) b = .ok (some id)
  among : ∃ others, names.Perm (a :: b :: others)

variable {tree : FileTree} {directory : Path} {names order : List Name} {a b : Name}
  {id : Identifier}

namespace Clash

theorem perm (h : Clash tree directory names a b id) (p : order.Perm names) :
    Clash tree directory order a b id :=
  ⟨h.first, h.second, h.among.imp fun _ hp => p.trans hp⟩

theorem ne (h : Clash tree directory names a b id) (distinct : names.Nodup) : a ≠ b := by
  obtain ⟨others, hp⟩ := h.among
  rintro rfl
  exact (List.nodup_cons.mp (hp.nodup_iff.mp distinct)).1 List.mem_cons_self

theorem symm (h : Clash tree directory names a b id) : Clash tree directory names b a id :=
  ⟨h.second, h.first, h.among.imp fun _ hp => hp.trans (List.Perm.swap b a _)⟩

/-- An entry clashes with one that was seen before it. -/
theorem of_mem {seen rest : List Name} (ha : identify tree (directory.join a) a = .ok (some id))
    (hb : identify tree (directory.join b) b = .ok (some id)) (hm : a ∈ seen) :
    Clash tree directory (seen ++ b :: rest) a b id := by
  obtain ⟨before, after, rfl⟩ := List.append_of_mem hm
  refine ⟨ha, hb, before ++ after ++ rest, ?_⟩
  rw [List.append_assoc, List.cons_append]
  refine List.perm_middle.trans (List.Perm.cons a ?_)
  rw [← List.append_assoc]
  exact List.perm_middle

/-- Where two entries clash, no collection succeeds. -/
theorem collect_ne_ok (h : Clash tree directory names a b id) (handlers : List HandlerSource) :
    collect tree directory [] names ≠ .ok handlers := by
  intro hc
  obtain ⟨-, sorted, hp⟩ := collect_ok List.Pairwise.nil hc
  obtain ⟨others, ho⟩ := h.among
  have hs : handlers.Perm (sourcesOf tree directory (a :: b :: others)) := by
    rw [List.append_nil] at hp
    exact hp.trans (ho.filterMap _)
  have ha : sourceOf? tree directory a = some ⟨id, directory.join a⟩ :=
    sourceOf?_eq_some_iff.mpr ⟨h.first, rfl⟩
  have hb : sourceOf? tree directory b = some ⟨id, directory.join b⟩ :=
    sourceOf?_eq_some_iff.mpr ⟨h.second, rfl⟩
  rw [sourcesOf, List.filterMap_cons_some ha, List.filterMap_cons_some hb] at hs
  have hn := (hs.map HandlerSource.id).nodup_iff.mp sorted.nodup_ids
  exact (List.nodup_cons.mp hn).1 List.mem_cons_self

end Clash

/-! ## The reason of a failure -/

/-- A failure is that of an entry which is not acceptable, or of two that clash. -/
def Explains (tree : FileTree) (directory : Path) (names : List Name) (failure : Failure) : Prop :=
  (∃ bad ∈ names, identify tree (directory.join bad) bad = .error failure) ∨
    ∃ a b id, Clash tree directory names a b id ∧
      failure = duplicate id (directory.join a) (directory.join b)

/-- A collection fails on an entry that is not acceptable, or on one that clashes with an entry
before it. -/
theorem explains_of_collect {seen : List Name} {found : List HandlerSource} {failure : Failure}
    (sorted : Sorted found) (hf : found.Perm (sourcesOf tree directory seen))
    (h : collect tree directory found names = .error failure) :
    Explains tree directory (seen ++ names) failure := by
  -- What was found so far comes from the entries seen so far, so a handler that is in the way has an
  -- entry among them; both grow with every entry that is collected.
  induction names generalizing seen found with
  | nil => cases h
  | cons name rest ih =>
    have hs : sourcesOf tree directory (seen ++ [name]) =
        sourcesOf tree directory seen ++ (sourceOf? tree directory name).toList := by
      rw [sourcesOf, List.filterMap_append]
      cases hn : sourceOf? tree directory name <;> simp [sourcesOf, hn]
    rw [sourceOf?] at hs
    rw [collect] at h
    rw [List.append_cons]
    cases hi : identify tree (directory.join name) name with
    | error cause =>
      rw [hi] at h
      cases h
      exact .inl ⟨name, by simp, hi⟩
    | ok id? =>
      rw [hi] at h hs
      cases id? with
      | none =>
        refine ih sorted ?_ h
        rw [hs]
        simpa using hf
      | some id =>
        obtain ⟨inserted, hr, hp, hi⟩ | ⟨old, ho, hid, hr⟩ :=
          insertSource_cases ⟨id, directory.join name⟩ sorted
        · simp only [hr] at h
          refine ih hi ?_ h
          rw [hs]
          exact (hp.trans (hf.cons _)).trans (List.perm_append_singleton _ _).symm
        · simp only [hr] at h
          cases h
          obtain ⟨first, hm, hfirst⟩ := List.mem_filterMap.mp (hf.mem_iff.mp ho)
          obtain ⟨ha, hpath⟩ := sourceOf?_eq_some_iff.mp hfirst
          simp only at hid
          rw [hid] at ha
          rw [hpath, hid, ← List.append_cons]
          exact .inr ⟨first, name, id, .of_mem ha hi hm, rfl⟩

theorem explains_of_collect_nil {failure : Failure}
    (h : collect tree directory [] names = .error failure) :
    Explains tree directory names failure := by
  have he : Explains tree directory ([] ++ names) failure :=
    explains_of_collect List.Pairwise.nil List.Perm.nil h
  exact he

theorem identify_error {path : Path} {name : Name} {failure : Failure}
    (h : identify tree path name = .error failure) :
    ∃ reason, failure = .invalidIdentifier path reason := by
  unfold identify at h
  split at h
  · cases h
    exact ⟨_, rfl⟩
  · split at h
    · cases h
    · split at h
      · cases h
      · cases h
        exact ⟨_, rfl⟩

/-- The failure of a clash names both paths in their order, whichever entry was seen first. -/
theorem duplicate_join (directory : Path) (h : a ≠ b) (id : Identifier) : ∃ first second,
    (first = a ∧ second = b ∨ first = b ∧ second = a) ∧
      (directory.join second).comesAfter (directory.join first) = true ∧
      duplicate id (directory.join a) (directory.join b) =
        .duplicateIdentifier id (directory.join first) (directory.join second) ∧
      duplicate id (directory.join b) (directory.join a) =
        .duplicateIdentifier id (directory.join first) (directory.join second) := by
  have hc := directory.comesAfter_join h
  cases hb : (directory.join b).comesAfter (directory.join a) with
  | true =>
    rw [hb] at hc
    exact ⟨a, b, .inl ⟨rfl, rfl⟩, hb, by simp [duplicate, hc], by simp [duplicate, hb]⟩
  | false =>
    rw [hb] at hc
    exact ⟨b, a, .inr ⟨rfl, rfl⟩, hc, by simp [duplicate, hc], by simp [duplicate, hb]⟩

/-! ## Failures with one reason -/

/-- One entry is not acceptable, and nothing else is wrong. -/
structure SingleRefusal (tree : FileTree) (directory : Path) (names : List Name) (bad : Name)
    (failure : Failure) : Prop where
  mem : bad ∈ names
  refused : identify tree (directory.join bad) bad = .error failure
  others : ∀ name ∈ names, name ≠ bad → Acceptable tree directory name
  apart : ∀ a b id, ¬ Clash tree directory names a b id

/-- One pair of entries clashes, and nothing else is wrong. -/
structure SingleClash (tree : FileTree) (directory : Path) (names : List Name) (a b : Name)
    (id : Identifier) : Prop where
  clash : Clash tree directory names a b id
  acceptable : ∀ name ∈ names, Acceptable tree directory name
  only : ∀ c d other, Clash tree directory names c d other → c = a ∧ d = b ∨ c = b ∧ d = a

theorem SingleRefusal.collect_eq {failure : Failure}
    (h : SingleRefusal tree directory names a failure) (p : order.Perm names) :
    collect tree directory [] order = .error failure := by
  cases hc : collect tree directory [] order with
  | ok handlers =>
    obtain ⟨hall, -, -⟩ := collect_ok List.Pairwise.nil hc
    obtain ⟨id?, hi⟩ := hall a (p.mem_iff.mpr h.mem)
    rw [h.refused] at hi
    cases hi
  | error cause =>
    obtain ⟨bad, hm, hb⟩ | ⟨c, d, other, hcd, -⟩ := explains_of_collect_nil hc
    · by_cases e : bad = a
      · rw [e, h.refused] at hb
        rw [Except.error.inj hb]
      · obtain ⟨id?, hi⟩ := h.others bad (p.mem_iff.mp hm) e
        rw [hb] at hi
        cases hi
    · exact absurd (hcd.perm p.symm) (h.apart c d other)

theorem SingleClash.collect_eq (h : SingleClash tree directory names a b id)
    (p : order.Perm names) :
    collect tree directory [] order = .error (duplicate id (directory.join a) (directory.join b)) ∨
      collect tree directory [] order =
        .error (duplicate id (directory.join b) (directory.join a)) := by
  cases hc : collect tree directory [] order with
  | ok handlers => exact absurd hc ((h.clash.perm p).collect_ne_ok handlers)
  | error cause =>
    obtain ⟨bad, hm, hb⟩ | ⟨c, d, other, hcd, rfl⟩ := explains_of_collect_nil hc
    · obtain ⟨id?, hi⟩ := h.acceptable bad (p.mem_iff.mp hm)
      rw [hb] at hi
      cases hi
    · obtain ⟨rfl, rfl⟩ | ⟨rfl, rfl⟩ := h.only c d other (hcd.perm p.symm)
      · have he := h.clash.first
        rw [hcd.first] at he
        cases he
        exact .inl rfl
      · have he := h.clash.first
        rw [hcd.second] at he
        cases he
        exact .inr rfl

/-! ## The order of a listing -/

theorem collect_ok_of_perm {handlers : List HandlerSource} (p : order.Perm names)
    (h : collect tree directory [] names = .ok handlers) :
    collect tree directory [] order = .ok handlers := by
  obtain ⟨hall, sorted, hp⟩ := collect_ok List.Pairwise.nil h
  have hs := p.filterMap (sourceOf? tree directory)
  rw [List.append_nil] at hp
  have hn : ((sourcesOf tree directory order ++ []).map HandlerSource.id).Nodup := by
    rw [List.append_nil]
    exact ((hp.trans hs.symm).map _).nodup_iff.mp sorted.nodup_ids
  obtain ⟨others, ho⟩ := exists_collect List.Pairwise.nil
    (fun name hm => hall name (p.mem_iff.mp hm)) hn
  obtain ⟨-, hsorted, hperm⟩ := collect_ok List.Pairwise.nil ho
  rw [List.append_nil] at hperm
  -- Both are sorted lists of the same handlers.
  have he : others = handlers := by
    refine List.Perm.eq_of_pairwise (fun x y _ _ hxy hyx => ?_) hsorted sorted
      (hperm.trans (hs.trans hp.symm))
    exact absurd rfl (hxy.trans hyx).ne
  rw [ho, he]

/-- The entries of a directory, collected in two orders, give the same handlers in both or fail in
both. If there is only one reason to fail, the failure is the same. The paths of a clash are always
named in their order. -/
theorem listing_order_irrelevant (tree : FileTree) (directory : Path) (names order : List Name)
    (distinct : names.Nodup) (perm : order.Perm names) :
    (∀ handlers, collect tree directory [] names = .ok handlers ↔
        collect tree directory [] order = .ok handlers) ∧
      (∀ bad failure, SingleRefusal tree directory names bad failure →
        (∃ reason, failure = .invalidIdentifier (directory.join bad) reason) ∧
          collect tree directory [] names = .error failure ∧
          collect tree directory [] order = .error failure) ∧
      (∀ a b id, SingleClash tree directory names a b id → ∃ first second,
        (first = a ∧ second = b ∨ first = b ∧ second = a) ∧
          (directory.join second).comesAfter (directory.join first) = true ∧
          collect tree directory [] names =
            .error (.duplicateIdentifier id (directory.join first) (directory.join second)) ∧
          collect tree directory [] order =
            .error (.duplicateIdentifier id (directory.join first) (directory.join second))) ∧
      ∀ id first second,
        collect tree directory [] order = .error (.duplicateIdentifier id first second) →
          second.comesAfter first = true ∧ ∃ a b, Clash tree directory names a b id ∧
            first = directory.join a ∧ second = directory.join b := by
  refine ⟨fun handlers => ⟨collect_ok_of_perm perm, collect_ok_of_perm perm.symm⟩, ?_, ?_, ?_⟩
  · intro bad failure h
    exact ⟨identify_error h.refused, h.collect_eq (List.Perm.refl _), h.collect_eq perm⟩
  · intro a b id h
    obtain ⟨first, second, hpair, hafter, hab, hba⟩ :=
      duplicate_join directory (h.clash.ne distinct) id
    have hc : ∀ order : List Name, order.Perm names → collect tree directory [] order =
        .error (.duplicateIdentifier id (directory.join first) (directory.join second)) := by
      intro order p
      obtain he | he := h.collect_eq p
      · rw [he, hab]
      · rw [he, hba]
    exact ⟨first, second, hpair, hafter, hc names (List.Perm.refl _), hc order perm⟩
  · intro id first second h
    obtain ⟨bad, -, hb⟩ | ⟨a, b, other, hc, hd⟩ := explains_of_collect_nil h
    · obtain ⟨reason, hr⟩ := identify_error hb
      cases hr
    · have hn := hc.perm perm.symm
      obtain ⟨x, y, hpair, hafter, hab, -⟩ :=
        duplicate_join directory (hn.ne distinct) other
      rw [hab] at hd
      cases hd
      obtain ⟨rfl, rfl⟩ | ⟨rfl, rfl⟩ := hpair
      · exact ⟨hafter, x, y, hn, rfl, rfl⟩
      · exact ⟨hafter, x, y, hn.symm, rfl, rfl⟩

/-! ### A folder and a file of one identifier, and a name with a dash -/

namespace Sample

def site : Name := ⟨Utf8.encode "srv", rfl⟩
def folder : Name := ⟨Utf8.encode "http", by decide⟩
def source : Name := ⟨Utf8.encode "http.rs", by decide⟩
def dashed : Name := ⟨Utf8.encode "web-dav", by decide⟩

/-- A working directory with two entries for one identifier and one for none. -/
def twins : FileTree where
  entries := [([site], .directory), ([source, site], .file [] 0o644 .owner), ([folder, site], .directory),
    ([dashed, site], .directory)]
  home := [site]
  privileged := false
  distinct := by
    simp only [List.map_cons, List.map_nil]
    decide

end Sample

/-- Two entries that differ can clash in one way only. -/
theorem Clash.of_pair {c d : Name} (h : Clash tree directory [a, b] c d id) (hn : a ≠ b) :
    c = a ∧ d = b ∨ c = b ∧ d = a := by
  have hne := h.ne (List.nodup_cons.mpr ⟨by simpa using hn, List.nodup_singleton b⟩)
  obtain ⟨others, hp⟩ := h.among
  have hc := hp.symm.subset List.mem_cons_self
  have hd := hp.symm.subset (List.mem_cons_of_mem c List.mem_cons_self)
  rw [List.mem_cons, List.mem_singleton] at hc hd
  obtain rfl | rfl := hc
  · obtain rfl | rfl := hd
    · exact absurd rfl hne
    · exact .inl ⟨rfl, rfl⟩
  · obtain rfl | rfl := hd
    · exact .inr ⟨rfl, rfl⟩
    · exact absurd rfl hne

theorem reversed_listing_same_failures :
    (SingleClash Sample.twins (Path.ofText ".") [Sample.folder, Sample.source] Sample.folder
        Sample.source ⟨"http", by decide⟩ ∧
      collect Sample.twins (Path.ofText ".") [] [Sample.source, Sample.folder] =
        .error (.duplicateIdentifier ⟨"http", by decide⟩ (Path.ofText "./http")
          (Path.ofText "./http.rs"))) ∧
    (SingleRefusal Sample.twins (Path.ofText ".") [Sample.folder, Sample.dashed] Sample.dashed
        (.invalidIdentifier (Path.ofText "./web-dav") (.invalidChar '-')) ∧
      collect Sample.twins (Path.ofText ".") [] [Sample.dashed, Sample.folder] =
        .error (.invalidIdentifier (Path.ofText "./web-dav") (.invalidChar '-'))) := by
  have hf : identify Sample.twins ((Path.ofText ".").join Sample.folder) Sample.folder =
      .ok (some ⟨"http", by decide⟩) := by decide +kernel
  have hs : identify Sample.twins ((Path.ofText ".").join Sample.source) Sample.source =
      .ok (some ⟨"http", by decide⟩) := by decide +kernel
  have hd : identify Sample.twins ((Path.ofText ".").join Sample.dashed) Sample.dashed =
      .error (.invalidIdentifier (Path.ofText "./web-dav") (.invalidChar '-')) := by decide +kernel
  have clash : SingleClash Sample.twins (Path.ofText ".") [Sample.folder, Sample.source]
      Sample.folder Sample.source ⟨"http", by decide⟩ := by
    refine ⟨⟨hf, hs, [], List.Perm.refl _⟩, ?_, fun c d other h => h.of_pair (by decide)⟩
    simp only [List.forall_mem_cons, Acceptable, hf, hs]
    simp
  have refusal : SingleRefusal Sample.twins (Path.ofText ".") [Sample.folder, Sample.dashed]
      Sample.dashed (.invalidIdentifier (Path.ofText "./web-dav") (.invalidChar '-')) := by
    refine ⟨by simp, hd, ?_, fun a b id h => ?_⟩
    · simp only [List.forall_mem_cons, Acceptable, hf]
      simp
    · have hb := h.first
      have hc := h.second
      obtain ⟨rfl, rfl⟩ | ⟨rfl, rfl⟩ := h.of_pair (by decide)
      · rw [hd] at hc
        cases hc
      · rw [hd] at hb
        cases hb
  refine ⟨⟨clash, ?_⟩, refusal, ?_⟩
  · obtain ⟨-, -, hall, -⟩ := listing_order_irrelevant Sample.twins (Path.ofText ".")
      [Sample.folder, Sample.source] [Sample.source, Sample.folder] (by decide)
      (List.Perm.swap _ _ _)
    obtain ⟨first, second, ⟨rfl, rfl⟩ | ⟨rfl, rfl⟩, hafter, -, hc⟩ := hall _ _ _ clash
    · exact hc
    · exact absurd hafter (by decide +kernel)
  · obtain ⟨-, hall, -⟩ := listing_order_irrelevant Sample.twins (Path.ofText ".")
      [Sample.folder, Sample.dashed] [Sample.dashed, Sample.folder] (by decide)
      (List.Perm.swap _ _ _)
    exact (hall _ _ refusal).2.2

end HandlerRegistry.Discovery
