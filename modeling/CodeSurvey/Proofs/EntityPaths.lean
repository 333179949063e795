import CodeSurvey.Proofs.KeptResults

/-!
# Entities name their file

Whatever its kind, an entity says which file it was read out of. So the entities of one file can be
told apart from all others.
-/

namespace CodeSurvey

/-- The path of the file that an entity was read out of. -/
def Kind.filePath : (k : Kind) → k.Entity → String
  | .functions => Function.filePath
  | .classes => Class.filePath
  | .interfaces => Interface.filePath
  | .types => TypeAlias.filePath
  | .routes => Route.filePath
  | .services => Service.filePath
  | .controllers => Controller.filePath
  | .middlewares => Middleware.filePath
  | .utilities => Utility.filePath
  | .models => Model.filePath
  | .hooks => Hook.filePath
  | .components => Component.filePath

namespace Extract

/-! ## One kind after the other -/

variable {limits : Limits} {v : View}

theorem filePath_of_mem_functions {f : Function} (h : f ∈ functions limits v) :
    f.filePath = v.path := by
  unfold functions at h
  obtain ⟨s, -, h⟩ := List.mem_filterMap.mp h
  obtain ⟨c, -, rfl⟩ := Option.map_eq_some_iff.mp h
  rfl

theorem filePath_of_mem_classes {c : Class} (h : c ∈ classes limits v) : c.filePath = v.path := by
  obtain ⟨s, -, rfl⟩ := List.mem_map.mp h
  rfl

theorem filePath_of_mem_interfaces {i : Interface} (h : i ∈ interfaces limits v) :
    i.filePath = v.path := by
  obtain ⟨s, -, rfl⟩ := List.mem_map.mp h
  rfl

theorem filePath_of_mem_aliases {a : TypeAlias} (h : a ∈ aliases limits v) :
    a.filePath = v.path := by
  obtain ⟨s, -, h⟩ := List.mem_filterMap.mp h
  unfold buildAlias? at h
  dsimp only at h
  split at h
  · contradiction
  · rw [← Option.some.inj h]

/-- **Routes come from three places**: from the handlers that a route file exports, from the default
export of a page, and from calls of a router. What holds of the records that are written there holds
of all routes. -/
theorem forall_mem_routes {auth : Security.Auth} {P : Route → Prop}
    (hhandler : ∀ method m, (handlerPattern method).search? v.content = some m → ∀ path stop,
      P (RouteSource.route ⟨limits, v, auth.protects v.content⟩ method path m.start stop
        "nextjs" []))
    (hpage : ∀ m, defaultExportPattern.search? v.content = some m → ∀ path stop,
      P (RouteSource.route ⟨limits, v, auth.protects v.content⟩ "ALL" path m.start stop
        "nextjs-pages" []))
    (hcall : ∀ m ∈ routerCallPattern.findAll v.content, ∀ method path stop middleware,
      P (RouteSource.route ⟨limits, v, auth.protects v.content⟩ method path m.start stop
        "express" middleware)) :
    ∀ r ∈ routes limits auth v, P r := by
  intro r h
  unfold routes at h
  rcases List.mem_append.mp h with h | h
  · split at h
    · obtain ⟨method, -, h⟩ := List.mem_filterMap.mp h
      obtain ⟨m, hm, rfl⟩ := Option.map_eq_some_iff.mp h
      exact hhandler method m hm _ _
    · split at h
      · obtain ⟨m, hm, rfl⟩ := Option.map_eq_some_iff.mp (Option.mem_toList.mp h)
        exact hpage m hm _ _
      · contradiction
  · obtain ⟨m, hm, rfl⟩ := List.mem_map.mp h
    exact hcall m hm _ _ _ _

theorem filePath_of_mem_routes {auth : Security.Auth} {r : Route} (h : r ∈ routes limits auth v) :
    r.filePath = v.path :=
  forall_mem_routes (P := fun r => r.filePath = v.path) (fun _ _ _ _ _ => rfl)
    (fun _ _ _ _ => rfl) (fun _ _ _ _ _ _ => rfl) r h

theorem filePath_of_mem_middlewares {m : Middleware} (h : m ∈ middlewares limits v) :
    m.filePath = v.path := by
  obtain ⟨s, -, rfl⟩ := List.mem_map.mp h
  rfl

theorem filePath_of_mem_schemaModels {m : Model} (h : m ∈ schemaModels limits v) :
    m.filePath = v.path := by
  obtain ⟨s, -, rfl⟩ := List.mem_map.mp h
  rfl

theorem filePath_of_mem_hooks {hook : Hook} (h : hook ∈ hooks limits v) :
    hook.filePath = v.path := by
  obtain ⟨s, -, rfl⟩ := List.mem_map.mp h
  rfl

theorem filePath_of_mem_components {types : DeclaredTypes} {c : Component}
    (h : c ∈ components limits types v) : c.filePath = v.path := by
  obtain ⟨s, -, rfl⟩ := List.mem_map.mp h
  rfl

/-! ## All kinds -/

/-- What is found in a file names the file, whatever it was put together from. -/
theorem Extractors.filePath_of_mem_found {x : Extractors} {given : Entities} {k : Kind}
    {e : k.Entity} (h : e ∈ x.found v given k) : k.filePath e = v.path := by
  cases k with
  | functions => exact filePath_of_mem_functions h
  | classes => exact filePath_of_mem_classes h
  | interfaces => exact filePath_of_mem_interfaces h
  | types => exact filePath_of_mem_aliases h
  | routes => exact filePath_of_mem_routes h
  | middlewares => exact filePath_of_mem_middlewares h
  | hooks => exact filePath_of_mem_hooks h
  | components => exact filePath_of_mem_components h
  | services =>
    rw [List.mem_singleton.mp h]
    rfl
  | controllers =>
    rw [List.mem_singleton.mp h]
    rfl
  | utilities =>
    simp only [Extractors.found, utilities] at h
    split at h
    · contradiction
    · rw [List.mem_singleton.mp h]
      rfl
  | models =>
    simp only [Extractors.found] at h
    split at h
    · exact filePath_of_mem_schemaModels h
    · obtain ⟨c, -, rfl⟩ := List.mem_map.mp h
      rfl

/-- **Paths.** What is left of a file names the file. -/
theorem Context.filePath_of_mem_left {c : Context} {gone : Kind → Bool} {k : Kind} {e : k.Entity}
    (h : e ∈ c.left gone k) : k.filePath e = c.view.path := by
  unfold Context.left at h
  rw [Extractors.entitiesWithout_eq] at h
  split at h
  · contradiction
  · exact Extractors.filePath_of_mem_found h

end Extract

end CodeSurvey
