import HandlerRegistry.Dispatch.Protocols
import Mathlib.Tactic.SplitIfs

/-! # URLs and the handlers that serve them

The scheme of a URL is what stands before the leftmost `://`. A word without a colon is therefore
the scheme exactly if the URL begins with it and the mark, and this alone decides which handlers
serve a request: `https` leaves its URLs to `http`, and no URL of `ftp` is one of these two
(`urls_are_dispatched`). -/

namespace HandlerRegistry.Dispatch
set_option autoImplicit false

namespace Request
variable {request other : Request} {scheme : String}

/-! ## Schemes -/

/-- The URL begins with a scheme and the mark after it. -/
def Names (request : Request) (scheme : String) : Prop :=
  ∃ rest, request.url = scheme ++ "://" ++ rest

theorem eq_marked_iff {url before after : String} : url = before ++ "://" ++ after ↔
    url.toList = before.toList ++ (schemeMark ++ after.toList) := by
  have hm : "://".toList = schemeMark := rfl
  rw [← String.toList_inj, String.toList_append, String.toList_append, hm, List.append_assoc]

theorem scheme?_eq_some_iff : request.scheme? = some scheme ↔
    ∃ rest, request.url = scheme ++ "://" ++ rest ∧
      ∀ before after, request.url = before ++ "://" ++ after → scheme.length ≤ before.length := by
  simp only [scheme?, eq_marked_iff, Option.map_eq_some_iff, ← String.length_toList]
  constructor
  · rintro ⟨⟨before, after⟩, h, rfl⟩
    obtain ⟨he, hl⟩ := Text.splitAtFirst_eq_some.mp h
    simp only [String.toList_ofList]
    refine ⟨String.ofList after, by simpa using he, fun first rest hf => ?_⟩
    exact hl first.toList rest.toList hf
  · rintro ⟨rest, he, hl⟩
    refine ⟨(scheme.toList, rest.toList), ?_, String.ofList_toList⟩
    refine Text.splitAtFirst_eq_some.mpr ⟨he, fun first after hf => ?_⟩
    have h := hl (String.ofList first) (String.ofList after) (by simpa using hf)
    simpa only [String.toList_ofList] using h

theorem scheme?_eq_none_iff : request.scheme? = none ↔
    ∀ before after, request.url ≠ before ++ "://" ++ after := by
  simp only [scheme?, Option.map_eq_none_iff, Text.splitAtFirst_eq_none, ne_eq, eq_marked_iff]
  constructor
  · intro h before after
    exact h before.toList after.toList
  · intro h before after he
    exact h (String.ofList before) (String.ofList after) (by simpa using he)

/-- What holds no colon cannot reach into a mark, so no mark begins before its end. -/
theorem length_le_of_colonless {before first after rest : List Char} (hc : ':' ∉ before)
    (h : before ++ (schemeMark ++ after) = first ++ (schemeMark ++ rest)) :
    before.length ≤ first.length := by
  obtain ⟨t, rfl, -⟩ | ⟨t, rfl, ht⟩ := List.append_eq_append_iff.mp h
  · simp
  · cases t with
    | nil => simp
    | cons c t =>
      obtain rfl : ':' = c := (List.cons.inj ht).1
      simp at hc

theorem scheme?_eq_some_iff_names (hc : ':' ∉ scheme.toList) :
    request.scheme? = some scheme ↔ request.Names scheme := by
  rw [scheme?_eq_some_iff]
  constructor
  · rintro ⟨rest, he, -⟩
    exact ⟨rest, he⟩
  · rintro ⟨rest, he⟩
    refine ⟨rest, he, fun before after hb => ?_⟩
    rw [eq_marked_iff] at he hb
    simpa only [String.length_toList] using length_le_of_colonless hc (he.symm.trans hb)

theorem scheme?_congr (h : request.url = other.url) : request.scheme? = other.scheme? := by
  rw [scheme?, scheme?, h]

end Request

/-! ## Handlers -/

namespace Protocols
variable {call : Call}

theorem https_eq_http (h : call.request.scheme? = some "https") : https call = http call := by
  simp [https, h]

theorem https_eq_refused (h : call.request.scheme? ≠ some "https") :
    https call = .refused .unsupported call := by
  simp [https, h]

theorem http_serves_iff : (http call).status ≠ .unsupported ↔
    call.request.scheme? = some "http" ∨ call.request.scheme? = some "https" := by
  unfold http
  split_ifs with hs
  · exact iff_of_false (fun h => h rfl) (not_or.mpr hs)
  all_goals
    have hserved := (Decidable.not_and_iff_not_or_not.mp hs).imp Decidable.not_not.mp
      Decidable.not_not.mp
    exact iff_of_true (fun h => nomatch h) hserved

theorem ftp_serves_iff : (ftp call).status ≠ .unsupported ↔
    call.request.scheme? = some "ftp" := by
  unfold ftp
  split_ifs with hs
  · exact iff_of_false (fun h => h rfl) hs
  all_goals exact iff_of_true (fun h => nomatch h) (Decidable.not_not.mp hs)

/-- The scheme is what stands before the leftmost mark, so a word without a colon is the scheme
exactly if the URL begins with it and the mark. The handler of `https` answers as that of `http`
does if the URL is one of `https`, and otherwise refuses without any effect. The handler of `http`
serves these two schemes, that of `ftp` its own, and no URL is served by both. -/
theorem urls_are_dispatched :
    (∀ (request : Request) (scheme : String), request.scheme? = some scheme ↔
      ∃ rest, request.url = scheme ++ "://" ++ rest ∧ ∀ before after,
        request.url = before ++ "://" ++ after → scheme.length ≤ before.length) ∧
    (∀ request : Request, request.scheme? = none ↔
      ∀ before after, request.url ≠ before ++ "://" ++ after) ∧
    (∀ (request : Request) (scheme : String), ':' ∉ scheme.toList →
      (request.scheme? = some scheme ↔ request.Names scheme)) ∧
    (∀ call : Call,
      (call.request.Names "https" → https call = http call) ∧
      (¬ call.request.Names "https" → https call = ⟨.unsupported, call.request, [], call.data⟩) ∧
      ((http call).status ≠ .unsupported ↔
        call.request.Names "http" ∨ call.request.Names "https") ∧
      ((ftp call).status ≠ .unsupported ↔ call.request.Names "ftp")) ∧
    ∀ call other : Call, call.request.url = other.request.url →
      (ftp call).status ≠ .unsupported →
        (http other).status = .unsupported ∧ (https other).status = .unsupported := by
  have hnames : ∀ (request : Request), ∀ scheme ∈ ["http", "https", "ftp"],
      (request.Names scheme ↔ request.scheme? = some scheme) := by
    intro request scheme hm
    have hc : ∀ scheme ∈ ["http", "https", "ftp"], ':' ∉ scheme.toList := by decide
    exact (Request.scheme?_eq_some_iff_names (hc scheme hm)).symm
  refine ⟨fun _ _ => Request.scheme?_eq_some_iff, fun _ => Request.scheme?_eq_none_iff,
    fun _ _ hc => Request.scheme?_eq_some_iff_names hc, fun call => ?_, ?_⟩
  · rw [hnames _ "http" (by simp), hnames _ "https" (by simp), hnames _ "ftp" (by simp)]
    exact ⟨https_eq_http, https_eq_refused, http_serves_iff, ftp_serves_iff⟩
  · intro call other hu hf
    have hs : other.request.scheme? = some "ftp" :=
      (Request.scheme?_congr hu).symm.trans (ftp_serves_iff.mp hf)
    have hh : ¬ (http other).status ≠ .unsupported := by
      rw [http_serves_iff, hs]
      decide
    have hn : other.request.scheme? ≠ some "https" := by
      rw [hs]
      decide
    refine ⟨Decidable.not_not.mp hh, ?_⟩
    rw [https_eq_refused hn]
    rfl

/-! ### A URL that holds a second mark -/

namespace Sample

/-- A call for a URL of `https` whose query is a URL of `ftp`. -/
def forwarding : Call :=
  { Call.ofUrl "https://host/?to=ftp://file" with data := .counter 6 }

end Sample

theorem second_mark_is_no_scheme :
    Sample.forwarding.request.scheme? = some "https" ∧
      https Sample.forwarding = http Sample.forwarding ∧
      (http Sample.forwarding).status ≠ .unsupported ∧
      (ftp { Sample.forwarding with stop := true }).status = .unsupported := by
  have hn : Sample.forwarding.request.Names "https" := ⟨"host/?to=ftp://file", rfl⟩
  obtain ⟨-, -, hscheme, hcalls, halone⟩ := urls_are_dispatched
  obtain ⟨hhttps, -, hhttp, -⟩ := hcalls Sample.forwarding
  have hs := hhttp.mpr (.inr hn)
  refine ⟨(hscheme _ "https" (by decide)).mpr hn, hhttps hn, hs, ?_⟩
  refine Decidable.not_not.mp fun hf => hs (halone _ Sample.forwarding rfl hf).1

end Protocols
end HandlerRegistry.Dispatch
