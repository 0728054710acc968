import Mathlib.Data.List.Forall2
import Switchboard.Proofs.ErrorResponse
import Switchboard.Proofs.SetCookie

/-!
# Switchboard.Proofs.Rendered

What a rendered response says.  Rendering never fails, and what cannot be sent
is left out without a trace in the response: a response is made from the valid
headers and the valid cookies alone.  The trace is in the log, which tells of
each flaw once.

* **validity** — headers as their grammar has them, cookies by their slots;
* `render_eq` — a response is made from what is valid;
* `Exchange.Renders` — a response to an exchange, part by part;
* `Exchange.Flaw` — what rendering replaces or leaves out, and what is logged
  of it;
* `rendering_drops_flaws` — every exchange.
-/

namespace Switchboard

open Http

/-! ## Validity -/

namespace Http

/-- A name that a header can have is a token. -/
def ValidName (s : String) : Prop :=
  s ≠ "" ∧ s.length ≤ 65535 ∧ ∀ c ∈ s.toList, Cookie.tokenRanges.Contains c

/-- A header can carry tabs, and all else but controls. -/
def ValidValue (s : String) : Prop :=
  ∀ c ∈ s.toList, c.toNat = 0x09 ∨ 0x20 ≤ c.toNat ∧ c.toNat ≠ 0x7F

/-- A header that can be sent. -/
def ValidHeader (h : String × String) : Prop := ValidName h.1 ∧ ValidValue h.2

-- The characters of the text are tried one by one, not all characters there are.
instance (s : String) : Decidable (ValidName s) :=
  @instDecidableAnd _ _ inferInstance (@instDecidableAnd _ _ inferInstance (List.decidableBAll _ _))

instance (s : String) : Decidable (ValidValue s) := List.decidableBAll _ _

instance (h : String × String) : Decidable (ValidHeader h) := inferInstanceAs (Decidable (_ ∧ _))

theorem isHeaderName_iff (s : String) : isHeaderName s = true ↔ ValidName s := by
  have limit : nameLimit = 65535 := rfl
  simp [isHeaderName, ValidName, limit, Cookie.isTokenChar_iff, and_assoc]

theorem isHeaderValue_iff (s : String) : isHeaderValue s = true ↔ ValidValue s := by
  simp [isHeaderValue, ValidValue, or_comm]

theorem isHeader_iff (h : String × String) :
    (isHeaderName h.1 && isHeaderValue h.2) = true ↔ ValidHeader h := by
  rw [Bool.and_eq_true, isHeaderName_iff, isHeaderValue_iff, ValidHeader]

end Http

namespace Cookie

/-- A cookie that can be sent: each of its texts fits its slot. -/
def Valid (c : Cookie) : Prop := ∀ s ∈ c.slots, s.Fits

instance (c : Cookie) : Decidable c.Valid := inferInstanceAs (Decidable (∀ s ∈ c.slots, s.Fits))

/-- The header value of a cookie that can be sent: the parts that it asks for. -/
def rendered (c : Cookie) : String := "; ".intercalate (c.said.map Part.text)

end Cookie

namespace Exchange

variable {σ : Type}

/-! ## What a response is made from -/

theorem foldl_renderHeader (fs : Fields) (hs : List (String × String)) :
    hs.foldl renderHeader fs =
      (hs.filter (ValidHeader ·)).foldl (fun fs h => fs.insert h.1 h.2) fs := by
  rw [List.foldl_filter]
  refine List.foldl_ext _ _ _ fun fs h _ => ?_
  simp only [renderHeader, isHeader_iff, decide_eq_true_eq]

theorem foldl_renderCookie (fs : Fields) (cs : List Cookie) :
    cs.foldl renderCookie fs =
      fs ++ (cs.filter (Cookie.Valid ·)).map fun c => ("set-cookie", c.rendered) := by
  induction cs generalizing fs with
  | nil => simp
  | cons c cs ih =>
      rw [List.foldl_cons, ih]
      by_cases valid : c.Valid
      · have sent : c.headerValue = .ok c.rendered := (c.headerValue_eq_ok _).mpr ⟨valid, rfl⟩
        simp [renderCookie, sent, valid, Fields.append]
      · have dropped : renderCookie fs c = fs := by
          unfold renderCookie
          split
          · next v sent => exact absurd ((c.headerValue_eq_ok v).mp sent).1 valid
          · rfl
        simp [dropped, valid]

/-- A response is made from the headers and the cookies that can be sent, and
from no others. -/
theorem render_eq (x : Exchange) :
    x.render =
      let base := renderBody (renderedStatus x.response.status) x.response.body
      let fields := (x.response.headers.entries.filter (ValidHeader ·)).foldl
        (fun fs h => fs.insert h.1 h.2) base.headers
      { base with headers := fields ++
          (x.response.cookies.filter (Cookie.Valid ·)).map fun c =>
            ("set-cookie", c.rendered) } := by
  rw [render, foldl_renderCookie, foldl_renderHeader]

/-! ## The parts of a response -/

/-- The text that is sent for a body. -/
def sentText (status : Nat) : Option Json → String
  | none => if status = 404 then "Not Found" else ""
  | some (.string text) => text
  | some body => body.text

/-- The content type that a body implies. -/
def impliedType (status : Nat) : Option Json → Option String
  | none => if status = 404 then some "text/plain; charset=utf-8" else none
  | some (.string _) => some "text/plain; charset=utf-8"
  | some _ => some "application/json"

/-- A response to an exchange: each valid header once, the content type that
the body implies unless there is a valid one, and of the cookies the valid ones
in their order, behind a cookie header that was written as such. -/
structure Renders (x : Exchange) (r : Response) : Prop where
  status : r.status = if 100 ≤ x.response.status ∧ x.response.status ≤ 999 then
    x.response.status.toNat else 500
  body : r.body = sentText r.status x.response.body
  header {name value : String} (written : x.response.headers.get? name = some value)
    (valid : ValidHeader (name, value)) (other : name ≠ "set-cookie") :
    r.headers.values name = [value]
  implied {name : String}
    (invalid : ∀ value, x.response.headers.get? name = some value → ¬ ValidHeader (name, value))
    (other : name ≠ "set-cookie") :
    r.headers.values name =
      if name = "content-type" then (impliedType r.status x.response.body).toList else []
  cookies : r.headers.values "set-cookie" =
    ((x.response.headers.get? "set-cookie").filter (ValidValue ·)).toList ++
      (x.response.cookies.filter (Cookie.Valid ·)).map Cookie.rendered

theorem renderBody_eq (status : Nat) (body : Option Json) :
    renderBody status body =
      ⟨status, ((impliedType status body).map fun type => ("content-type", type)).toList,
        sentText status body⟩ := by
  cases body with
  | none =>
      by_cases h : status = 404 <;>
        simp [renderBody, impliedType, sentText, h, Response.plain, Response.bare,
          Response.plainTextType]
  | some v => cases v <;> rfl

theorem values_renderBody (status : Nat) (body : Option Json) (name : String) :
    (renderBody status body).headers.values name =
      if name = "content-type" then (impliedType status body).toList else [] := by
  rw [renderBody_eq]
  cases impliedType status body with
  | none => simp [Fields.values]
  | some type => by_cases h : name = "content-type" <;> simp [Fields.values, h, eq_comm]

/-- What is left of a written value, if it can be sent under its name. -/
theorem filter_valid_some {name value : String} (valid : ValidHeader (name, value)) :
    (some value).filter (fun v => isHeaderName name && isHeaderValue v) = some value := by
  rw [Option.filter_some, if_pos ((isHeader_iff (name, value)).mpr valid)]

theorem values_render_cookie (x : Exchange) :
    x.render.headers.values "set-cookie" =
      ((x.response.headers.get? "set-cookie").filter (ValidValue ·)).toList ++
        (x.response.cookies.filter (Cookie.Valid ·)).map Cookie.rendered := by
  have name_ok : isHeaderName "set-cookie" = true := by decide
  have same : (fun v => isHeaderName "set-cookie" && isHeaderValue v) =
      fun v => decide (ValidValue v) := by
    funext v
    rw [name_ok, Bool.true_and, Bool.eq_iff_iff, isHeaderValue_iff, decide_eq_true_iff]
  have behind (fs : Fields) (cs : List Cookie) :
      Fields.values (fs ++ cs.map fun c => ("set-cookie", c.rendered)) "set-cookie" =
        fs.values "set-cookie" ++ cs.map Cookie.rendered := by
    simp [Fields.values, List.filter_append, List.filter_map, Function.comp_def]
  rw [render, foldl_renderCookie, behind, values_foldl_renderHeader x.response.headers.sorted, same]
  rw [values_renderBody, Dict.get?]
  cases (lookupEntry "set-cookie" x.response.headers.entries).filter
    fun v => decide (ValidValue v) <;> rfl

theorem renders_render (x : Exchange) : x.Renders x.render := by
  have base : (renderBody (renderedStatus x.response.status) x.response.body).status =
      x.render.status := rfl
  have status : x.render.status = renderedStatus x.response.status := by
    rw [← base, renderBody_eq]
  refine ⟨?_, ?_, ?_, ?_, x.values_render_cookie⟩
  · rw [status, renderedStatus_eq]
  · change (renderBody (renderedStatus x.response.status) x.response.body).body = _
    rw [renderBody_eq, status]
  · intro name value written valid other
    rw [x.values_render other, written, filter_valid_some valid]
    rfl
  · intro name invalid other
    have nothing : (x.response.headers.get? name).filter
        (fun v => isHeaderName name && isHeaderValue v) = none := by
      rw [Option.filter_eq_none_iff]
      intro value written sent
      exact invalid value written ((isHeader_iff (name, value)).mp sent)
    rw [x.values_render other, nothing, values_renderBody, status]
    rfl

/-! ## Flaws -/

/-- What rendering replaces or leaves out. -/
inductive Flaw where
  | status (status : UInt16)
  | header (h : String × String)
  | cookie (c : Cookie)

/-- The flaws of an exchange: its status, its headers by name, its cookies in
order. -/
def flaws (x : Exchange) : List Flaw :=
  (if 100 ≤ x.response.status ∧ x.response.status ≤ 999 then [] else [.status x.response.status])
    ++ (x.response.headers.entries.filter (¬ ValidHeader ·)).map .header
    ++ (x.response.cookies.filter (¬ Cookie.Valid ·)).map .cookie

/-- What is logged of a flaw. -/
inductive Flaw.Told : Flaw → LogRecord → Prop
  | status (n : UInt16) : Told (.status n)
      ⟨.warn, "invalid response status, rendering 500", [("status", .int n.toNat)]⟩
  | header (h : String × String) : Told (.header h)
      ⟨.warn, "dropping invalid response header", [("header", .string h.1)]⟩
  | cookie {c : Cookie} {s : Cookie.Slot} (first : Cookie.FirstMisfit c.slots s) : Told (.cookie c)
      ⟨.warn, "dropping invalid cookie", [("cookie", .string (Text.quoted c.name)),
        ("reason", .string (InvalidCookie.message ⟨s.part, s.text⟩))]⟩

/-- Of each thing that does not pass a record is written, and of the others
none. -/
theorem told_filter {α : Type} {passes : α → Prop} [DecidablePred passes] {flaw : α → Flaw}
    {records : α → List LogRecord} (none_of : ∀ a, passes a → records a = [])
    (one_of : ∀ a, ¬ passes a → ∃ r, records a = [r] ∧ (flaw a).Told r) (as : List α) :
    List.Forall₂ Flaw.Told ((as.filter (¬ passes ·)).map flaw) (as.flatMap records) := by
  induction as with
  | nil => exact .nil
  | cons a as ih =>
      rw [List.flatMap_cons]
      by_cases h : passes a
      · rw [none_of a h, List.filter_cons_of_neg (by simpa using h)]
        exact ih
      · obtain ⟨r, written, told⟩ := one_of a h
        rw [written, List.filter_cons_of_pos (by simpa using h), List.map_cons]
        exact .cons told ih

/-- One warning is logged of each flaw, in order. -/
theorem told_warnings (x : Exchange) : List.Forall₂ Flaw.Told x.flaws x.warnings := by
  have status : List.Forall₂ Flaw.Told
      (if 100 ≤ x.response.status ∧ x.response.status ≤ 999 then []
        else [.status x.response.status]) (statusWarnings x.response.status) := by
    by_cases h : 100 ≤ x.response.status ∧ x.response.status ≤ 999
    · simp [statusWarnings, isRenderable, h]
    · have told := Flaw.Told.status x.response.status
      simpa [statusWarnings, isRenderable, h] using told
  refine List.rel_append (List.rel_append status (told_filter ?_ ?_ _)) (told_filter ?_ ?_ _)
  · intro h valid
    rw [headerWarnings, if_pos ((isHeader_iff h).mpr valid)]
  · intro h invalid
    exact ⟨_, if_neg (mt (isHeader_iff h).mp invalid), .header h⟩
  · intro c valid
    rw [cookieWarnings, (c.headerValue_eq_ok _).mpr ⟨valid, rfl⟩]
  · intro c invalid
    cases sent : c.headerValue with
    | ok v => exact absurd ((c.headerValue_eq_ok v).mp sent).1 invalid
    | error e =>
        obtain ⟨s, first, rfl⟩ := (c.headerValue_eq_error e).mp sent
        exact ⟨_, by rw [cookieWarnings, sent], .cookie first⟩

/-! ## Leaving out what is invalid -/

/-- The exchange without the header of a name. -/
def withoutHeader (x : Exchange) (name : String) : Exchange :=
  { x with response := { x.response with headers :=
      ⟨x.response.headers.entries.filter (·.1 ≠ name), x.response.headers.sorted.filter _⟩ } }

/-- The exchange without the cookie at a position. -/
def withoutCookie (x : Exchange) (i : Nat) : Exchange :=
  { x with response := { x.response with cookies := x.response.cookies.eraseIdx i } }

theorem filter_eraseIdx_of_neg {α : Type} {p : α → Bool} {as : List α} {i : Nat} {a : α}
    (h : as[i]? = some a) (hp : ¬ p a) : (as.eraseIdx i).filter p = as.filter p := by
  induction as generalizing i with
  | nil => rfl
  | cons b as ih =>
      cases i with
      | zero =>
          obtain rfl : b = a := by simpa using h
          rw [List.eraseIdx_cons_zero, List.filter_cons_of_neg hp]
      | succ i =>
          rw [List.eraseIdx_cons_succ, List.filter_cons, List.filter_cons, ih (by simpa using h)]

theorem render_withoutHeader {x : Exchange} {name value : String}
    (written : x.response.headers.get? name = some value) (invalid : ¬ ValidHeader (name, value)) :
    (x.withoutHeader name).render = x.render := by
  have same : (x.response.headers.entries.filter (·.1 ≠ name)).filter (ValidHeader ·) =
      x.response.headers.entries.filter (ValidHeader ·) := by
    rw [List.filter_filter]
    refine List.filter_congr fun h hh => ?_
    by_cases eq : h.1 = name
    · -- There is one value under a name.
      have bound : x.response.headers.get? name = some h.2 := by
        rw [← eq]
        exact (Dict.get?_eq_some_iff _).mpr hh
      have value_eq : h.2 = value := Option.some.inj (bound.symm.trans written)
      have flawed : ¬ ValidHeader h := by
        rw [← eq, ← value_eq] at invalid
        exact invalid
      simp [flawed]
    · simp [eq]
  rw [render_eq, render_eq]
  simp only [withoutHeader, same]

theorem render_withoutCookie {x : Exchange} {i : Nat} {c : Cookie}
    (written : x.response.cookies[i]? = some c) (invalid : ¬ c.Valid) :
    (x.withoutCookie i).render = x.render := by
  rw [render_eq, render_eq]
  have same : (x.response.cookies.eraseIdx i).filter (Cookie.Valid ·) =
      x.response.cookies.filter (Cookie.Valid ·) :=
    filter_eraseIdx_of_neg written (by simpa using invalid)
  simp only [withoutCookie, same]

/-! ## Every exchange -/

open Scheduler in
/-- Every exchange is rendered, and all that can be sent of it is in the
response.  A header or a cookie that cannot be sent changes nothing in the
response; each of them, and a status that no response can have, is told of by
one warning.  In a run the response comes at once, and these warnings are all
that is logged. -/
theorem rendering_drops_flaws (x : Exchange) :
    x.Renders x.render ∧ List.Forall₂ Flaw.Told x.flaws x.warnings ∧
    (∀ name value, x.response.headers.get? name = some value → ¬ ValidHeader (name, value) →
      (x.withoutHeader name).render = x.render) ∧
    (∀ i c, x.response.cookies[i]? = some c → ¬ c.Valid → (x.withoutCookie i).render = x.render) ∧
    ∀ s : Scheduler Exchange σ, s.state = x → ∃ s',
      Ends Server.Router.renderExchange s x.render s' ∧
      s'.world.journal.toList = s.world.journal.toList ++ x.warnings.map .record := by
  refine ⟨x.renders_render, x.told_warnings, fun _ _ => render_withoutHeader,
    fun _ _ => render_withoutCookie, ?_⟩
  intro s hs
  subst hs
  refine ⟨_, ends_look.mpr (ends_write.mpr (ends_note.mpr (ends_done.mpr ⟨rfl, rfl⟩))), ?_⟩
  simp [World.log, Journal.log, Journal.toList]

/-- A status that is too great, a name with a blank in it, a cookie without a
name, and beside them a header and a cookie that can be sent. -/
theorem rendering_drops_flaws_beside :
    let cookie (name : String) : Cookie := { name, value := "1", settings := .empty }
    let x : Exchange := { response := {
      status := 1000
      headers := .ofList [("a b", "1"), ("content-type", "text/html"), ("set-cookie", "x=y")]
      cookies := [cookie "", cookie "id"] } }
    x.render.status = 500 ∧ x.render.body = "" ∧
      x.render.headers.values "content-type" = ["text/html"] ∧
      x.render.headers.values "set-cookie" = ["x=y", "id=1; Path=/; HttpOnly"] ∧
      (x.withoutHeader "a b").render = x.render ∧ (x.withoutCookie 0).render = x.render ∧
      x.warnings.length = 3 := by
  intro cookie x
  obtain ⟨renders, told, header, cookies, -⟩ := rendering_drops_flaws (σ := Unit) x
  have status : x.render.status = 500 := renders.status
  have page : x.response.headers.get? "content-type" = some "text/html" := by decide +kernel
  refine ⟨status, ?_, renders.header page ?_ ?_, ?_, header "a b" "1" ?_ ?_,
    cookies 0 (cookie "") rfl ?_, ?_⟩
  · rw [renders.body, status]
    rfl
  · decide +kernel
  · decide
  · rw [renders.cookies]
    decide +kernel
  · decide +kernel
  · decide +kernel
  · decide +kernel
  · rw [← told.length_eq]
    decide +kernel

end Exchange

end Switchboard
