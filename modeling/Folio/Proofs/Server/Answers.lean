import Folio.Proofs.Provider.Answers
import Folio.Server

set_option autoImplicit false

/-! # What servers answer

The loaders of a server answer at once, and as long as the files stay as they are they always answer the same.
So a server that is at rest answers a request for a page with what the loader for its key gives, and is at
rest again (`Settled.load`). -/

namespace Folio.Server

open Provider

/-- What there is for a slug: what the loader for its key gives, or why there is no key. -/
def fetch (server : Server) (tree : FileTree) (slug : String) :
    Except (LoadError LoaderError) Artifact := do
  let key ← server.provider.resolve slug
  (server.backend.load tree key).mapError .loader

/-- All that a provider with the loaders of a server keeps and gives is what there is, and nobody waits. -/
structure Serves (tree : FileTree) (server : Server) (p : Provider LoaderError) : Prop where
  sound : Sound p
  prompt : Prompt p
  gives : Gives (fun slug outcome => outcome = .ofResult (server.fetch tree slug)) p
  catalogue : p.catalogue = server.provider.catalogue

/-- A server at rest, all that it keeps being what there is. -/
structure Settled (tree : FileTree) (server : Server) : Prop where
  serves : server.Serves tree server.provider
  idle : server.provider.ready = []

/-- Loaders are called in turns only, and nobody is cancelled. -/
def Answers (server : Server) (tree : FileTree) : Event LoaderError → Prop
  | .request _ | .requestAll _ | .invalidate _ => True
  | .turn answer => answer = server.answer tree
  | _ => False

section

variable {tree : FileTree} {server : Server} {p : Provider LoaderError}

theorem fetch_of_error (h : Serves tree server p) {slug : String} {error : LoadError LoaderError}
    (hresolve : p.resolve slug = .error error) : server.fetch tree slug = .error error := by
  rw [fetch, ← resolve_eq_of_catalogue h.catalogue, hresolve]
  rfl

theorem fetch_of_ok (h : Serves tree server p) {slug key : String} (hresolve : p.resolve slug = .ok key) :
    server.fetch tree slug = (server.backend.load tree key).mapError .loader := by
  rw [fetch, ← resolve_eq_of_catalogue h.catalogue, hresolve]
  rfl

theorem Serves.brings (h : Serves tree server p) {e : Event LoaderError} (he : server.Answers tree e) :
    Brings (fun slug outcome => outcome = .ofResult (server.fetch tree slug)) p e where
  unresolved id l error _ _ _ hresolve := by
    rw [fetch_of_error h hresolve]
    rfl
  returned answer id l key result heq _ _ _ hresolve hnow := by
    subst heq
    obtain rfl : answer = server.answer tree := he
    obtain rfl := Answer.now.inj hnow
    rw [fetch_of_ok h hresolve]
  received id l result heq _ := by
    subst heq
    exact he.elim
  cancelled id c hcancels _ := by
    rcases hcancels with rfl | ⟨_, _, _, _, rfl, -⟩ <;> exact he.elim

/-- One step of a provider with the loaders of a server. -/
theorem Serves.step (h : Serves tree server p) {e : Event LoaderError} (he : server.Answers tree e) :
    Serves tree server (p.step e) := by
  refine ⟨sound_step h.sound e, prompt_step h.prompt fun answer key n heq hlater => ?_,
    gives_step h.sound h.gives (h.brings he), (catalogue_step p e).trans h.catalogue⟩
  subst heq
  obtain rfl : answer = server.answer tree := he
  cases hlater

theorem Serves.run (h : Serves tree server p) {events : List (Event LoaderError)}
    (he : ∀ e ∈ events, server.Answers tree e) : Serves tree server (p.run events) :=
  run_induction (I := fun _ q => Serves tree server q) events h fun _ e hmem hq => hq.step (he e hmem)

/-- A server with turns taken until nothing can move is at rest. -/
theorem Serves.drain (h : Serves tree server p) : Serves tree server (p.drain (server.answer tree)) := by
  obtain ⟨n, hn⟩ := turns_eq_run (server.answer tree) p.turnBound p
  have hrun : p.drain (server.answer tree) = p.run (List.replicate n (.turn (server.answer tree))) := hn
  rw [hrun]
  refine h.run fun e he => ?_
  obtain rfl := List.eq_of_mem_replicate he
  rfl

/-- Who has asked has what there is when nothing can move. -/
theorem Serves.ended (h : Serves tree server p) (hquiet : p.ready = []) {id : Nat} {c : Caller LoaderError}
    (hc : p.callers[id]? = some c) : c.stage = .finished (.ofResult (server.fetch tree c.slug)) := by
  obtain ⟨outcome, hs⟩ :=
    finished_of_quiet h.sound hquiet hc fun loadId l key n _ hl => h.prompt loadId l key n hl
  rw [hs, h.gives.ended id c outcome hc (.inr hs)]

/-- A server that is opened is at rest. -/
theorem settled_serve (tree : FileTree) (b : Backend) (keyStart : String) (formats : List String) :
    Settled tree (b.serve keyStart formats) :=
  ⟨⟨sound_initial _, prompt_initial _, gives_initial _ _, rfl⟩, rfl⟩

/-- What there is for a slug does not depend on what a provider has done. -/
theorem Serves.withProvider (h : Serves tree server p) :
    Serves tree { server with provider := p } p ∧
      ∀ slug, Server.fetch { server with provider := p } tree slug = server.fetch tree slug := by
  have hfetch : ∀ slug, Server.fetch { server with provider := p } tree slug = server.fetch tree slug := by
    intro slug
    unfold Server.fetch
    rw [resolve_eq_of_catalogue h.catalogue]
  refine ⟨⟨h.sound, h.prompt, ?_, rfl⟩, hfetch⟩
  simp only [hfetch]
  exact h.gives

/-- A request to a server at rest is answered with what there is. -/
theorem Settled.load (h : Settled tree server) (slug : String) :
    (server.load tree slug).1 = (server.fetch tree slug).mapError .load := by
  have hasked : Serves tree server (server.provider.request slug) :=
    h.serves.step (e := .request slug) trivial
  -- the caller of this request, before and after the turns
  have hcaller : (server.provider.request slug).callers[server.provider.callers.length]?
      = some { slug := slug } := List.getElem?_concat_length
  obtain ⟨n, hn⟩ := turns_eq_run (server.answer tree) (server.provider.request slug).turnBound
    (server.provider.request slug)
  obtain ⟨c, hc, hslug⟩ := slug_stays_run hcaller (List.replicate n (.turn (server.answer tree)))
  rw [← hn] at hc
  have hended := hasked.drain.ended (drain_ready _ _) hc
  rw [show c.slug = slug from hslug] at hended
  have hstage : ((server.provider.request slug).drain (server.answer tree)).callers[
      server.provider.callers.length]?.map Caller.stage
        = some (.finished (.ofResult (server.fetch tree slug))) := by
    rw [← hended]
    exact congrArg (Option.map Caller.stage) hc
  unfold Server.load Server.drain
  dsimp only
  rw [show Server.answer { server with provider := server.provider.request slug } tree = server.answer tree from rfl,
    hstage]
  cases server.fetch tree slug <;> rfl

/-! ## Requests one after the other -/

/-- What can be asked of a server: a page, all pages that pass some filters, or to drop what it has. -/
inductive Request where
  | load (slug : String)
  | loadAll (filters : Option ContentFilters)
  | invalidate (slug : Option String)

/-- The server after a request. -/
def after (tree : FileTree) (server : Server) : Request → Server
  | .load slug => (server.load tree slug).2
  | .loadAll filters => (server.loadAll tree filters).2
  | .invalidate slug => server.invalidate slug

theorem after_load (slug : String) : server.after tree (.load slug)
    = { server with provider := (server.provider.request slug).drain (server.answer tree) } := by
  change (server.load tree slug).2 = _
  unfold Server.load
  dsimp only
  split <;> rfl

theorem after_loadAll (filters : Option ContentFilters) : server.after tree (.loadAll filters)
    = { server with provider := (server.provider.requestAll filters).drain (server.answer tree) } := by
  change (server.loadAll tree filters).2 = _
  unfold Server.loadAll
  dsimp only
  split <;> rfl

/-- After a request the server is at rest again, and there is what there was. -/
theorem Settled.after (h : Settled tree server) (r : Request) :
    Settled tree (server.after tree r) ∧
      ∀ slug, (server.after tree r).fetch tree slug = server.fetch tree slug := by
  cases r with
  | load slug =>
    rw [after_load]
    have hdrained := (h.serves.step (e := .request slug) trivial).drain
    exact ⟨⟨hdrained.withProvider.1, drain_ready _ _⟩, hdrained.withProvider.2⟩
  | loadAll filters =>
    rw [after_loadAll]
    have hdrained := (h.serves.step (e := .requestAll filters) trivial).drain
    exact ⟨⟨hdrained.withProvider.1, drain_ready _ _⟩, hdrained.withProvider.2⟩
  | invalidate scope =>
    have hdropped : Serves tree server (server.provider.invalidate scope) :=
      h.serves.step (e := .invalidate scope) trivial
    refine ⟨⟨hdropped.withProvider.1, ?_⟩, hdropped.withProvider.2⟩
    cases scope <;> exact h.idle

/-- Whatever is asked, a server at rest stays one, and there is what there was. -/
theorem Settled.run (h : Settled tree server) (requests : List Request) :
    Settled tree (requests.foldl (Server.after tree) server) ∧
      ∀ slug, (requests.foldl (Server.after tree) server).fetch tree slug = server.fetch tree slug := by
  induction requests generalizing server with
  | nil => exact ⟨h, fun _ => rfl⟩
  | cons r requests ih =>
    obtain ⟨hnext, hfetch⟩ := h.after r
    obtain ⟨hrun, hfetch'⟩ := ih hnext
    exact ⟨hrun, fun slug => (hfetch' slug).trans (hfetch slug)⟩

end

end Folio.Server
