import PullGate.Comment.Basic
import PullGate.Json.Reader
import PullGate.Proofs.Address.Path
import PullGate.Proofs.Decoration.Errand
import PullGate.Proofs.Json.Escape
import PullGate.Proofs.Session.Traffic
import PullGate.Proofs.Text.Digits
import PullGate.Session.Dialogue

/-! A service that stores the comments on a pull request.  It lists those with the phrase that a
search quotes, adds what is posted to it and replaces what is put in the place of a comment; so what
its requests and replies are like, and which comments it has after them, is one relation. -/

namespace PullGate

/-! ### Searches -/

/-- A value of a form, read back. -/
def Percent.decodeForm (t : Text) : Text :=
  decode (t.map fun c => if c = CodePoint.scalar '+' then CodePoint.scalar ' ' else c)

/-- The value of the first pair of this name in the query of an address. -/
def Url.parameter? (name url : Text) : Option Text := do
  let query ← query? url
  let pair ← ((query.split '&').filterMap (Text.cut? '=')).find? fun pair =>
    Percent.decodeForm pair.1 = name
  return Percent.decodeForm pair.2

/-- What follows the first place where a part stands. -/
def Text.after? (part : Text) : Text → Option Text
  | [] => dropPrefix? part []
  | c :: t => (dropPrefix? part (c :: t)).or (after? part t)

namespace Comment

/-- The phrase that a search quotes. -/
def phrase? (search : Text) : Option Text := do
  let quoted ← Text.after? "content.raw~\"" search
  let cut ← Text.cut? '"' quoted
  return cut.1

/-- The phrase by which the summary comment is searched for. -/
def phrase : Text := marker ++ " "

theorem phrase?_query : phrase? query = some phrase := by decide +kernel

theorem containsText_of_isPrefixOf {part t : Text} (h : part.isPrefixOf t = true) :
    Text.containsText part t = true := by
  cases t with
  | nil => cases part with
    | nil => rfl
    | cons c part => cases h
  | cons c t => rw [Text.containsText, h, Bool.true_or]

/-- A summary comment as it is read from a request: halves of a surrogate pair are joined there. -/
def stored (a : Analysis) : Text := Json.joinHalves (text a)

/-- Every summary comment is found by the search. -/
theorem containsText_stored (a : Analysis) : Text.containsText phrase (stored a) = true := by
  apply containsText_of_isPrefixOf
  obtain ⟨rest, hrest⟩ : ∃ rest, text a = phrase ++ rest := ⟨_, by simp [text, phrase]; rfl⟩
  rw [stored, hrest, Json.joinHalves_append rfl, List.isPrefixOf_iff_prefix]
  exact List.prefix_append _ _

/-! ### Boards -/

/-- A comment that is stored, with the number that it has there. -/
structure Post where
  id : Int
  raw : Text
  deriving DecidableEq

/-- The comments on a pull request, in the order in which they were added. -/
abbrev Board := List Post

namespace Board

def ids (board : Board) : List Int := board.map Post.id

def containing (board : Board) (phrase : Text) : Board :=
  board.filter fun post => Text.containsText phrase post.raw

/-- Another text for a comment. -/
def replace (board : Board) (id : Int) (raw : Text) : Board :=
  board.map fun post => if post.id = id then { post with raw } else post

end Board

/-! ### Requests and replies -/

/-- The text in the body of a request. -/
def raw? (r : Http.Request) : Option Text := do
  let body ← r.body
  let j ← (Json.read body).toOption
  let content ← j.get? "content"
  match content.get? "raw" with
  | some (.string raw) => some raw
  | _ => none

/-- What a request wants of the comments. -/
inductive Demand where
  | search (phrase : Text)
  | add (raw : Text)
  | replace (id raw : Text)
  deriving DecidableEq

/-- What a request wants of the comments at this path, if it is for them. -/
def demand? (home : Text) (r : Http.Request) : Option Demand :=
  if r.method = "GET" then
    if Url.path r.url = home then ((Url.parameter? "q" r.url).bind phrase?).map .search else none
  else if r.method = "POST" then
    if Url.path r.url = home then (raw? r).map .add else none
  else if r.method = "PUT" then do
    let id ← Text.dropPrefix? (home ++ "/") (Url.path r.url)
    let raw ← raw? r
    return .replace id raw
  else none

def id? : Json → Option Int
  | .object members =>
    match Json.lookup "id" members with
    | some (.int id) => some id
    | _ => none
  | _ => none

/-- The numbers of the comments that a response lists. -/
def ids? (r : Http.Response) : Option (List Int) :=
  match r.json with
  | .ok (.object members) =>
    match Json.lookup "values" members with
    | some (.array items) => items.mapM id?
    | _ => none
  | _ => none

/-- Comments of these numbers, as an answer to a search. -/
def listing (ids : List Int) : Json :=
  .object [("values", .array (ids.map fun id => .object [("id", .int id)]))]

/-- An answer is read as a listing of these numbers. -/
def isRead (r : Http.Response) (ids : List Int) : Bool := ids? r = some ids

/-- An answer is written as a listing of these numbers, whether it can be read or not. -/
def isWritten (r : Http.Response) (ids : List Int) : Bool :=
  r.document.toOption = some (Json.write (listing ids))

theorem idOf_of_id? {j : Json} {id : Int} (h : id? j = some id) : idOf j = .ok (Text.ofInt id) := by
  unfold id? at h
  split at h
  · split at h
    · next hlookup =>
      obtain rfl := Option.some.inj h
      simp [idOf, hlookup, Json.display, Json.displayQuoted]
    · cases h
  · cases h

theorem firstOf_of_mapM {items : List Json} {ids : List Int} (h : items.mapM id? = some ids) :
    firstOf (.array items) = .ok (ids.head?.map Text.ofInt) := by
  cases items with
  | nil =>
    obtain rfl := Option.some.inj h
    rfl
  | cons item items =>
    rw [List.mapM_cons] at h
    simp only [Option.bind_eq_bind, Option.bind_eq_some_iff, Option.pure_def,
      Option.some.injEq] at h
    obtain ⟨id, hid, ids', -, rfl⟩ := h
    simp [firstOf, Json.isTruthy, idOf_of_id? hid, Except.map]

/-- A search goes on with the first of the numbers that the answer lists. -/
theorem listed?_of_ids? {r : Http.Response} {ids : List Int} (h : ids? r = some ids) :
    listed? r = some (ids.head?.map Text.ofInt) := by
  unfold ids? at h
  split at h
  · next members hread =>
    split at h
    · next items hvalues =>
      unfold listed?
      simp [hread, firstId, hvalues, firstOf_of_mapM h, Except.toOption]
    · cases h
  · cases h

namespace Board

/-- What becomes of the comments with a request and the reply to it. A search is answered with those
that hold its phrase. What is not for the comments, and what is put in the place of none of them,
leaves them as they are, with whatever reply. -/
inductive Step (lists : Http.Response → List Int → Bool) (home : Text) (board : Board) (hop : Hop) :
    Board → Prop where
  | listed {phrase : Text} {response : Http.Response}
    (h : demand? home hop.request = some (.search phrase)) (hheard : hop.heard = .ok response)
    (hstatus : response.status = 200)
    (hlists : lists response (board.containing phrase).ids = true) : Step lists home board hop board
  | added {raw : Text} {id : Int} {response : Http.Response}
    (h : demand? home hop.request = some (.add raw)) (hheard : hop.heard = .ok response)
    (hsuccess : response.isSuccess = true) (hfresh : id ∉ board.ids) :
    Step lists home board hop (board ++ [⟨id, raw⟩])
  | replaced {id : Int} {raw : Text} {response : Http.Response}
    (h : demand? home hop.request = some (.replace (Text.ofInt id) raw)) (hid : id ∈ board.ids)
    (hheard : hop.heard = .ok response) (hsuccess : response.isSuccess = true) :
    Step lists home board hop (board.replace id raw)
  | missed {id raw : Text} (h : demand? home hop.request = some (.replace id raw))
    (hid : ∀ stored ∈ board.ids, Text.ofInt stored ≠ id) : Step lists home board hop board
  | other (h : demand? home hop.request = none) : Step lists home board hop board

/-- The comments before and after a sequence of requests. -/
inductive Serves (lists : Http.Response → List Int → Bool) (home : Text) :
    Board → List Hop → Board → Prop where
  | nil {board : Board} : Serves lists home board [] board
  | cons {board between board' : Board} {hop : Hop} {H : List Hop}
    (h : Step lists home board hop between) (hserves : Serves lists home between H board') :
    Serves lists home board (hop :: H) board'

section Step

variable {lists : Http.Response → List Int → Bool} {home : Text} {board board' : Board} {hop : Hop}
  {H : List Hop}

theorem Serves.cons_inv (h : Serves lists home board (hop :: H) board') :
    ∃ between, Step lists home board hop between ∧ Serves lists home between H board' := by
  cases h with
  | cons h hserves => exact ⟨_, h, hserves⟩

theorem Step.of_search {phrase : Text} (h : Step lists home board hop board')
    (hdemand : demand? home hop.request = some (.search phrase)) :
    board' = board ∧ ∃ response, hop.heard = .ok response ∧ response.status = 200 ∧
      lists response (board.containing phrase).ids = true := by
  cases h with
  | listed h hheard hstatus hlists =>
    obtain rfl := Demand.search.inj (Option.some.inj (h.symm.trans hdemand))
    exact ⟨rfl, _, hheard, hstatus, hlists⟩
  | added h | replaced h | missed h => cases h.symm.trans hdemand
  | other h => cases h.symm.trans hdemand

theorem Step.of_add {raw : Text} (h : Step lists home board hop board')
    (hdemand : demand? home hop.request = some (.add raw)) :
    ∃ id response, board' = board ++ [⟨id, raw⟩] ∧ id ∉ board.ids ∧ hop.heard = .ok response ∧
      response.isSuccess = true := by
  cases h with
  | added h hheard hsuccess hfresh =>
    obtain rfl := Demand.add.inj (Option.some.inj (h.symm.trans hdemand))
    exact ⟨_, _, rfl, hfresh, hheard, hsuccess⟩
  | listed h | replaced h | missed h => cases h.symm.trans hdemand
  | other h => cases h.symm.trans hdemand

theorem Step.of_replace {id : Int} {raw : Text} (h : Step lists home board hop board')
    (hdemand : demand? home hop.request = some (.replace (Text.ofInt id) raw))
    (hid : id ∈ board.ids) :
    board' = board.replace id raw ∧ ∃ response, hop.heard = .ok response ∧
      response.isSuccess = true := by
  cases h with
  | replaced h _ hheard hsuccess =>
    obtain ⟨hsame, rfl⟩ := Demand.replace.inj (Option.some.inj (h.symm.trans hdemand))
    obtain rfl := Text.ofInt_injective hsame
    exact ⟨rfl, _, hheard, hsuccess⟩
  | missed h hmissed =>
    obtain ⟨rfl, -⟩ := Demand.replace.inj (Option.some.inj (h.symm.trans hdemand))
    exact absurd rfl (hmissed id hid)
  | listed h | added h => cases h.symm.trans hdemand
  | other h => cases h.symm.trans hdemand

end Step

/-! ### Computed steps -/

/-- What becomes of the comments with a request and the reply to it, if comments are numbered in
sequence from the first one on. -/
def step? (lists : Http.Response → List Int → Bool) (home : Text) (first : Int) (board : Board)
    (hop : Hop) : Option Board :=
  match demand? home hop.request, hop.heard with
  | none, _ => some board
  | some _, .error _ => none
  | some (.search phrase), .ok response =>
    if response.status = 200 && lists response (board.containing phrase).ids then some board
    else none
  | some (.add raw), .ok response =>
    let id := first + board.length
    if response.isSuccess && id ∉ board.ids then some (board ++ [⟨id, raw⟩]) else none
  | some (.replace id raw), .ok response =>
    match board.find? fun post => Text.ofInt post.id = id with
    | some post => if response.isSuccess then some (board.replace post.id raw) else none
    | none => some board

/-- The comments after a sequence of requests. -/
def serve? (lists : Http.Response → List Int → Bool) (home : Text) (first : Int) :
    Board → List Hop → Option Board
  | board, [] => some board
  | board, hop :: H => do
    let between ← step? lists home first board hop
    serve? lists home first between H

section Computed

variable {lists : Http.Response → List Int → Bool} {home : Text} {first : Int}
  {board board' : Board} {hop : Hop} {H : List Hop}

theorem step_of_step? (h : step? lists home first board hop = some board') :
    Step lists home board hop board' := by
  unfold step? at h
  split at h
  · next hdemand =>
    obtain rfl := Option.some.inj h
    exact .other hdemand
  · cases h
  · next hdemand hheard =>
    simp only [Option.ite_none_right_eq_some, Bool.and_eq_true, decide_eq_true_iff,
      Option.some.injEq] at h
    obtain ⟨⟨hstatus, hlists⟩, rfl⟩ := h
    exact .listed hdemand hheard hstatus hlists
  · next hdemand hheard =>
    simp only [Option.ite_none_right_eq_some, Bool.and_eq_true, decide_eq_true_iff,
      Option.some.injEq] at h
    obtain ⟨⟨hsuccess, hfresh⟩, rfl⟩ := h
    exact .added hdemand hheard hsuccess hfresh
  · next hdemand hheard =>
    split at h
    · next post hfind =>
      simp only [Option.ite_none_right_eq_some, Option.some.injEq] at h
      obtain ⟨hsuccess, rfl⟩ := h
      have hid := List.find?_some hfind
      rw [decide_eq_true_iff] at hid
      rw [← hid] at hdemand
      exact .replaced hdemand (List.mem_map_of_mem (List.mem_of_find?_eq_some hfind)) hheard
        hsuccess
    · next hfind =>
      obtain rfl := Option.some.inj h
      refine .missed hdemand fun stored hstored => ?_
      obtain ⟨post, hpost, rfl⟩ := List.mem_map.mp hstored
      simpa using List.find?_eq_none.mp hfind post hpost

theorem serves_of_serve? (h : serve? lists home first board H = some board') :
    Serves lists home board H board' := by
  induction H generalizing board with
  | nil =>
    obtain rfl := Option.some.inj h
    exact .nil
  | cons hop H ih =>
    obtain ⟨between, hstep, hserve⟩ := Option.bind_eq_some_iff.mp h
    exact .cons (step_of_step? hstep) (ih hserve)

end Computed

/-! ### Publishing -/

/-- The comments before and after a text is published: it takes the place of the first comment with
the phrase, and is added if there is none. -/
inductive Published (board : Board) (raw : Text) : Board → Prop where
  | added {id : Int} (hnone : board.containing phrase = []) (hfresh : id ∉ board.ids) :
    Published board raw (board ++ [⟨id, raw⟩])
  | replaced {post : Post} {more : Board} (hfound : board.containing phrase = post :: more) :
    Published board raw (board.replace post.id raw)

/-- The comments before and after texts are published one after the other. -/
inductive Publishes : Board → List Text → Board → Prop where
  | nil {board : Board} : Publishes board [] board
  | cons {board between board' : Board} {raw : Text} {raws : List Text}
    (h : Published board raw between) (hpublishes : Publishes between raws board') :
    Publishes board (raw :: raws) board'

variable {board board' : Board} {raw : Text} {raws : List Text} {n : Int}

theorem containing_append (board more : Board) (part : Text) :
    (board ++ more).containing part = board.containing part ++ more.containing part :=
  List.filter_append board more

theorem containing_singleton (n : Int) (h : Text.containsText phrase raw = true) :
    containing [⟨n, raw⟩] phrase = [⟨n, raw⟩] :=
  List.filter_cons_of_pos (by simpa using h)

theorem containing_concat (hnone : board.containing phrase = [])
    (h : Text.containsText phrase raw = true) :
    (board ++ [⟨n, raw⟩] : Board).containing phrase = [⟨n, raw⟩] := by
  rw [containing_append, hnone, containing_singleton n h, List.nil_append]

theorem replace_concat (hfresh : n ∉ board.ids) (raw raw' : Text) :
    (board ++ [⟨n, raw⟩] : Board).replace n raw' = board ++ [⟨n, raw'⟩] := by
  have hothers : ∀ post ∈ board,
      (if post.id = n then { post with raw := raw' } else post) = post := by
    intro post hpost
    rw [if_neg]
    rintro rfl
    exact hfresh (List.mem_map_of_mem hpost)
  unfold replace
  rw [List.map_append, List.map_congr_left hothers, List.map_id', List.map_singleton, if_pos rfl]

theorem Published.first (h : Published board raw board') (hnone : board.containing phrase = []) :
    ∃ n, n ∉ board.ids ∧ board' = board ++ [⟨n, raw⟩] := by
  cases h with
  | added _ hfresh => exact ⟨_, hfresh, rfl⟩
  | replaced hfound =>
    rw [hnone] at hfound
    cases hfound

/-- A text takes the place of the only comment with the phrase. -/
theorem Published.again {raw' : Text} (h : Published (board ++ [⟨n, raw⟩]) raw' board')
    (hnone : board.containing phrase = []) (hfresh : n ∉ board.ids)
    (hraw : Text.containsText phrase raw = true) : board' = board ++ [⟨n, raw'⟩] := by
  have hcontaining := containing_concat (n := n) hnone hraw
  cases h with
  | added hnone' =>
    rw [hcontaining] at hnone'
    cases hnone'
  | replaced hfound =>
    rw [hcontaining] at hfound
    obtain ⟨rfl, -⟩ := List.cons.inj hfound
    exact replace_concat hfresh raw raw'

/-- Texts that are published later leave the last of them, in the place of the one before. -/
theorem Publishes.again (h : Publishes (board ++ [⟨n, raw⟩]) raws board')
    (hnone : board.containing phrase = []) (hfresh : n ∉ board.ids)
    (hraw : Text.containsText phrase raw = true)
    (hraws : ∀ raw ∈ raws, Text.containsText phrase raw = true) :
    board' = board ++ [⟨n, raws.getLastD raw⟩] := by
  induction raws generalizing raw with
  | nil =>
    cases h
    rfl
  | cons raw' raws ih =>
    obtain ⟨hraw', hraws⟩ := List.forall_mem_cons.mp hraws
    cases h with
    | cons hpublished hpublishes =>
      rw [hpublished.again hnone hfresh hraw] at hpublishes
      rw [ih hpublishes hraw' hraws, List.getLastD_cons]

/-- There is one comment more than before, and no other with the phrase. -/
def GainsOne (board board' : Board) (raw : Text) : Prop :=
  ∃ n, n ∉ board.ids ∧ board' = board ++ [⟨n, raw⟩] ∧ board'.containing phrase = [⟨n, raw⟩]

theorem GainsOne.raw_eq (h : board.GainsOne board' raw) :
    (board'.containing phrase).map Post.raw = [raw] := by
  obtain ⟨n, -, -, hcontaining⟩ := h
  rw [hcontaining]
  rfl

/-- However many texts are published, the board has one comment more, with the last of them. -/
theorem Publishes.gainsOne (h : Publishes board raws board')
    (hnone : board.containing phrase = [])
    (hraws : ∀ raw ∈ raws, Text.containsText phrase raw = true) (hsome : raws ≠ []) :
    board.GainsOne board' (raws.getLast hsome) := by
  cases h with
  | nil => exact absurd rfl hsome
  | @cons _ _ _ raw raws hpublished hpublishes =>
    obtain ⟨hraw, hlater⟩ := List.forall_mem_cons.mp hraws
    obtain ⟨n, hfresh, rfl⟩ := hpublished.first hnone
    have hboard := hpublishes.again hnone hfresh hraw hlater
    rw [← List.getLast_eq_getLastD hsome] at hboard
    refine ⟨n, hfresh, hboard, ?_⟩
    rw [hboard, containing_concat hnone (hraws _ (List.getLast_mem hsome))]

end Board

end Comment

end PullGate
