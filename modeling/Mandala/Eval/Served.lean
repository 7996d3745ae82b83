import Mandala.Core.Pieces
import Mandala.Eval.Service

/-!
# What the worker makes of a line

The worker reads the request that was sent, and its answer is read by the caller
when the line is whole and refused when it is not.
-/

namespace Mandala.Eval

open Mandala.Data Mandala.Data.Derive Mandala.Drift Mandala.Transition

/-! ## The request -/

theorem notNull_string (text : String) :
    notNull (.string text) = some (.string text) := rfl

theorem notNull_array (values : List Json) :
    notNull (.array values) = some (.array values) := rfl

/-- The worker reads the request that was made. -/
theorem ofValue_line (request : Request) {id : ℕ}
    (hid : id < 18446744073709551616) :
    WorkerRequest.ofValue (request.line id) = some (request.received id) := by
  obtain ⟨op, flake, member, members⟩ := request
  have hdistinct : ([("id", Json.int id), ("op", .string op),
        ("flake", .string flake)] ++
      (member.map fun member => ("member", Json.string member)).toList ++
      (members.map fun members =>
        ("members", Json.array (members.map .string))).toList).Pairwise
          fun left right => left.1 ≠ right.1 := by
    cases member <;> cases members <;> simp
  have hmember : ([("id", Json.int id), ("op", .string op),
        ("flake", .string flake)] ++
      (member.map fun member => ("member", Json.string member)).toList ++
      (members.map fun members =>
        ("members", Json.array (members.map .string))).toList).lookup "member" =
          member.map Json.string := by
    cases member <;> cases members <;> rfl
  have hmembers : ([("id", Json.int id), ("op", .string op),
        ("flake", .string flake)] ++
      (member.map fun member => ("member", Json.string member)).toList ++
      (members.map fun members =>
        ("members", Json.array (members.map .string))).toList).lookup "members" =
          members.map fun members => Json.array (members.map .string) := by
    cases member <;> cases members <;> rfl
  simp only [WorkerRequest.ofValue, Request.line, contentOf, Option.bind_eq_bind,
    Option.bind_some]
  rw [required_named hdistinct rfl, required_named hdistinct rfl,
    defaulted_named hdistinct rfl,
    optional_named hdistinct notNull_string (fun _ => rfl) hmember,
    optional_named hdistinct (fun _ => notNull_array _) asStrings_strings
      hmembers, asWord64, asUnsigned_int hid]
  rfl

theorem fitsValues_strings (depth : ℕ) (texts : List String) :
    Json.fitsValues depth (texts.map .string) := by
  rw [Json.fitsValues_iff]
  intro value hmem
  obtain ⟨text, -, rfl⟩ := List.mem_map.mp hmem
  rw [Json.fits]

theorem fits_id {id : ℕ} (hid : id < 18446744073709551616) (depth : ℕ) :
    (Json.int id).fits depth := by
  simp only [Json.fits, Bool.and_eq_true, decide_eq_true_eq]
  omega

theorem fits_string (text : String) (depth : ℕ) :
    (Json.string text).fits depth := by
  rw [Json.fits]

theorem fits_line (request : Request) {id : ℕ}
    (hid : id < 18446744073709551616) :
    (request.line id).fits Json.maxDepth := by
  rw [Request.line, Json.maxDepth, Json.fits, Json.fitsFields_iff]
  intro field hmem
  rw [List.mem_append, List.mem_append] at hmem
  rcases hmem with (hfixed | hmember) | hmembers
  · have hcases : field = ("id", .int id) ∨ field = ("op", .string request.op) ∨
        field = ("flake", .string request.flake) := by
      simpa using hfixed
    rcases hcases with rfl | rfl | rfl
    · exact fits_id hid 126
    · exact fits_string request.op 126
    · exact fits_string request.flake 126
  · rw [Option.mem_toList, Option.map_eq_some_iff] at hmember
    obtain ⟨member, -, rfl⟩ := hmember
    exact fits_string member 126
  · rw [Option.mem_toList, Option.map_eq_some_iff] at hmembers
    obtain ⟨members, -, rfl⟩ := hmembers
    exact fitsValues_strings 125 members

/-! ## The response -/

theorem fits_errorValue (error : String) : (errorValue error).fits 125 := by
  rw [errorValue, Json.fits, Json.fitsFields_iff]
  intro field hmem
  rw [List.mem_singleton.mp hmem]
  exact fits_string error 124

theorem fits_toplevelsValue (toplevels : Toplevels) :
    (toplevelsValue toplevels).fits 126 := by
  rw [toplevelsValue, Json.fits, Json.fitsFields_iff]
  intro field hmem
  have hentry := mem_of_mem_mapOf hmem
  rw [List.mem_append, List.mem_map, List.mem_map] at hentry
  rcases hentry with ⟨path, -, rfl⟩ | ⟨error, -, rfl⟩
  · exact fits_string path.2 125
  · exact fits_errorValue error.2

theorem fits_fields {response : Response} {depth : ℕ}
    (hid : response.id < 18446744073709551616)
    (hvalue : ∀ value ∈ response.value, value.fits depth) :
    (Json.object response.fields).fits (depth + 1) := by
  rw [Json.fits, Json.fitsFields_iff]
  intro field hmem
  rw [Response.fields, List.mem_cons, List.mem_cons, List.mem_append] at hmem
  rcases hmem with rfl | rfl | hrest | hrest
  · exact fits_id hid depth
  · rw [Json.fits]
  · rw [Option.mem_toList, Option.map_eq_some_iff] at hrest
    obtain ⟨value, hsome, rfl⟩ := hrest
    exact hvalue value hsome
  · rw [Option.mem_toList, Option.map_eq_some_iff] at hrest
    obtain ⟨error, -, rfl⟩ := hrest
    exact fits_string error depth

/-- A response is made of what it was serialized as. -/
theorem result_fields (host : Host) (response : Response) :
    (Ending.answered response.fields).result host = response.result := by
  obtain ⟨id, ok, value, error⟩ := response
  have hok : (Response.fields ⟨id, ok, value, error⟩).lookup "ok" =
      some (.bool ok) := rfl
  have hvalue : (Response.fields ⟨id, ok, value, error⟩).lookup "value" =
      value := by
    cases value <;> cases error <;> rfl
  have herror : (Response.fields ⟨id, ok, value, error⟩).lookup "error" =
      error.map Json.string := by
    cases value <;> cases error <;> rfl
  rw [Ending.result, Response.result, hok, hvalue, herror]
  cases ok
  · cases error <;> rfl
  · rfl

namespace Service

variable {σ : Type} (service : Service σ)

/-- The library's values can be written and read. -/
structure Writes : Prop where
  lawful : Json.Lawful service.host.fromStr service.host.toStr
  fits : ∀ state flake value,
    (service.nix.aggregate state flake).2 = .ok value → value.fits 126

variable {service}

theorem handle_id (state : σ) (request : WorkerRequest) :
    (service.handle state request).2.id = request.id := by
  unfold handle
  split
  · rfl
  · split <;> rfl
  · split
    · rfl
    · split <;> rfl
  · split <;> rfl
  · split <;> rfl
  · rfl

theorem Writes.handle_fits (hwrites : service.Writes) (state : σ)
    (request : WorkerRequest) :
    ∀ value ∈ (service.handle state request).2.value, value.fits 126 := by
  intro value hvalue
  unfold handle at hvalue
  split at hvalue
  · cases hvalue
  · split at hvalue
    · next next result hresult =>
        cases hvalue
        exact hwrites.fits state request.flake value
          (congrArg Prod.snd hresult)
    · cases hvalue
  · split at hvalue
    · cases hvalue
    · split at hvalue
      · next next path hresult =>
          cases hvalue
          cases path with
          | none => rfl
          | some path => exact fits_string path 126
      · cases hvalue
  · split at hvalue
    · cases hvalue
      exact fits_toplevelsValue _
    · cases hvalue
  · split at hvalue
    · cases hvalue
      exact fits_toplevelsValue _
    · cases hvalue
  · cases hvalue

end Service

/-! ## The lines -/

theorem trim_line {fromStr : String → Except String Json}
    {toStr : Json → String} (hlawful : Json.Lawful fromStr toStr)
    {response : Response} {text : String}
    (htext : text = toStr (.object response.fields) ∨
      text = toStr (.object response.fields) ++ "\n") :
    String.ofList (Text.trim text.toList) = toStr (.object response.fields) := by
  obtain ⟨inside, hline⟩ := hlawful.braces response.fields
  have htrim : Text.trim (toStr (.object response.fields)).toList =
      (toStr (.object response.fields)).toList := by
    rw [hline, Json.trim_braces]
  rcases htext with rfl | rfl
  · rw [htrim, String.ofList_toList]
  · have hspace : Text.trim
        ((toStr (.object response.fields)).toList ++ ['\n']) = _ :=
      Text.trim_concat (by decide) _
    rw [String.toList_append]
    exact (congrArg String.ofList (hspace.trans htrim)).trans
      String.ofList_toList

theorem readReply_fields {host : Host} {toStr : Json → String}
    (hlawful : Json.Lawful host.fromStr toStr) {response : Response}
    (hid : response.id < 18446744073709551616)
    (hfits : (Json.object response.fields).fits Json.maxDepth) {text : String}
    (htext : text = toStr (.object response.fields) ∨
      text = toStr (.object response.fields) ++ "\n") :
    readReply host response.id (.ok text) = .ok response.fields := by
  have hlookup : response.fields.lookup "id" = some (.int response.id) := rfl
  have hreply : Reply.id response.fields = some (response.id : Int) := by
    rw [Reply.id, hlookup, Option.bind_some]
    exact Json.asU64_int hid
  rw [readReply, trim_line hlawful htext, hlawful.reads_back hfits]
  simp only [Json.asObject]
  rw [if_pos hreply]

namespace Service.Writes

variable {σ : Type} {service : Service σ} (hwrites : service.Writes)
include hwrites

theorem respond_line (state : σ) (request : Request) {id : ℕ}
    (hid : id < 18446744073709551616) :
    service.respond state (service.host.toStr (request.line id)) =
      ((service.handle state (request.received id)).1,
        some (service.encode (service.answer state request id))) := by
  obtain ⟨inside, hline⟩ : ∃ inside,
      (service.host.toStr (request.line id)).toList =
        '\x7b' :: (inside ++ ['\x7d']) := hwrites.lawful.braces _
  have hfull : Text.trim (service.host.toStr (request.line id)).toList ≠ [] := by
    rw [hline, Json.trim_braces]
    exact List.cons_ne_nil _ _
  rw [respond, if_neg hfull, hwrites.lawful.reads_back (fits_line request hid)]
  simp only [ofValue_line request hid]
  rfl

theorem after_snoc (lines : List Json) (request : Request) {id : ℕ}
    (hid : id < 18446744073709551616) :
    service.after (lines ++ [request.line id]) =
      (service.handle (service.after lines) (request.received id)).1 := by
  rw [after, List.foldl_append, List.foldl_cons, List.foldl_nil,
    hwrites.respond_line _ request hid]
  rfl

theorem fits_answer (state : σ) (request : Request) {id : ℕ}
    (hid : id < 18446744073709551616) :
    (Json.object (service.answer state request id).fields).fits
      Json.maxDepth := by
  refine fits_fields ?_ (hwrites.handle_fits state _)
  rw [answer, handle_id]
  exact hid

/-- A whole line is the answer, whether or not it was ended. -/
theorem readReply_whole {state : σ} {request : Request} {id : ℕ}
    (hid : id < 18446744073709551616) {text : String}
    (htext : text = service.encode (service.answer state request id) ∨
      text = service.encode (service.answer state request id) ++ "\n") :
    readReply service.host id (.ok text) =
      .ok (service.answer state request id).fields := by
  have hsame : (service.answer state request id).id = id := handle_id _ _
  have hread := readReply_fields hwrites.lawful (hsame.symm ▸ hid)
    (hwrites.fits_answer state request hid) htext
  rwa [hsame] at hread

end Service.Writes

/-- Nothing is trimmed off the front of an object. -/
theorem trim_brace_append (text : List Char) :
    ∃ spaces, Text.trim ('\x7b' :: text) ++ spaces = '\x7b' :: text := by
  have hopen : ¬ Text.isWhiteSpace '\x7b' = true := by decide
  refine ⟨(('\x7b' :: text).reverse.takeWhile Text.isWhiteSpace).reverse, ?_⟩
  rw [Text.trim, List.dropWhile_cons_of_neg hopen, ← List.reverse_append,
    List.takeWhile_append_dropWhile, List.reverse_reverse]

/-- What is left of a line is not an answer. -/
theorem Service.Writes.readReply_torn {σ : Type} {service : Service σ}
    (hwrites : service.Writes) {state : σ} {request : Request} {id : ℕ}
    (hid : id < 18446744073709551616) {torn cut : String}
    (hline : service.encode (service.answer state request id) = torn ++ cut)
    (hcut : cut ≠ "") :
    ∃ error : String, readReply service.host id (.ok torn) = .error (.transport
      s!"bad worker response {service.host.debugStr torn}: {error}") := by
  obtain ⟨inside, hbraces⟩ := hwrites.lawful.braces
    (service.answer state request id).fields
  obtain ⟨spaces, hspaces⟩ : ∃ spaces,
      Text.trim torn.toList ++ spaces = torn.toList := by
    cases htorn : torn.toList with
    | nil => exact ⟨[], rfl⟩
    | cons first more =>
        have hfirst : first = '\x7b' := by
          have htext := congrArg String.toList hline
          rw [String.toList_append, htorn, Service.encode, hbraces] at htext
          exact (List.cons.inj htext).1.symm
        rw [hfirst]
        exact trim_brace_append more
  have hsplit : service.host.toStr
      (.object (service.answer state request id).fields) =
        String.ofList (Text.trim torn.toList) ++
          (String.ofList spaces ++ cut) := by
    apply String.toList_injective
    rw [String.toList_append, String.toList_append, String.toList_ofList,
      String.toList_ofList, ← List.append_assoc, hspaces,
      ← String.toList_append, ← hline, Service.encode]
  have hrest : String.ofList spaces ++ cut ≠ "" := by
    intro hempty
    exact hcut (String.append_eq_empty_iff.mp hempty).2
  obtain ⟨error, herror⟩ := hwrites.lawful.torn
    (hwrites.fits_answer state request hid) hsplit hrest
  refine ⟨error, ?_⟩
  rw [readReply, herror]

/-- A host with a reader and a printer at hand. -/
def printingHost : Host :=
  { fromStr := Json.read, toStr := Json.print, debugStr := fun text => text
    secsF64 := fun _ => "600" }

end Mandala.Eval
