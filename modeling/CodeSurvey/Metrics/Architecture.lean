import CodeSurvey.Files.Classify

/-!
# Frameworks and architecture

A marker names a framework or a way to build software and says what gives it away: what stands in
files, and what their paths hold or end with.
-/

namespace CodeSurvey.Metrics

open Text

/-- A name and what gives it away. Paths are anchored and in lower case. -/
structure Marker where
  name : String
  content : List String := []
  paths : List String := []
  suffixes : List String := []
  deriving Repr, DecidableEq, Inhabited

/-- Whether a file gives the name of a marker away. -/
def Marker.fits (m : Marker) (path content : List Char) : Bool :=
  m.suffixes.any (fun s => endsWith path s.toList)
    || containsAny path (m.paths.map String.toList)
    || containsAny content (m.content.map String.toList)

/-- Whether a source file gives the name of a marker away. -/
def Marker.fitsFile (m : Marker) (file : SourceFile) : Bool :=
  m.fits (Files.anchoredLower file.path.toList) file.content.toList

/-- What remains to be asked about, and the names that have been given away so far. -/
structure Detection where
  remaining : List Marker
  found : List String := []

namespace Detection

/-- If a file gives a marker away, the name is found and the first marker that equals it is struck
from what remains. -/
def ask (path content : List Char) (d : Detection) (m : Marker) : Detection :=
  if m.fits path content then ⟨d.remaining.erase m, m.name :: d.found⟩ else d

/-- Asks a file about each marker that remained before. -/
def askAll (d : Detection) (file : SourceFile) : Detection :=
  d.remaining.foldl (ask (Files.anchoredLower file.path.toList) file.content.toList) d

/-- Asks one file after the other, as long as anything remains. -/
def run (d : Detection) : List SourceFile → Detection
  | [] => d
  | file :: rest => if d.remaining.isEmpty then d else (d.askAll file).run rest

end Detection

/-- The names of the markers that fit some file, in the order of the markers. Markers of one name
stand for each other. -/
def detect (markers : List Marker) (files : List SourceFile) : List String :=
  let found := (Detection.run ⟨markers, []⟩ files).found
  (markers.map (·.name)).filter found.contains

/-- The markers of the frameworks and architectures that are known. -/
def standardMarkers : List Marker := [
  { name := "React", content := ["from 'react'", "from \"react\"", "React."] },
  { name := "Next.js", content := ["from 'next", "from \"next"], paths := ["/next.config."] },
  { name := "Prisma ORM", content := ["@prisma/client", "PrismaClient"], suffixes := [".prisma"] },
  { name := "Express.js"
    content := ["from 'express'", "from \"express\"", "require('express')",
      "require(\"express\")"] },
  { name := "TypeScript", suffixes := [".ts", ".tsx"], paths := ["/tsconfig.json"] },
  { name := "Tailwind CSS", content := ["@tailwind", "tailwindcss"]
    paths := ["/tailwind.config."] },
  { name := "Zod Validation", content := ["from 'zod'", "from \"zod\"", "require('zod')"] },
  { name := "Redux"
    content := ["@reduxjs/toolkit", "from 'redux'", "from \"redux\"", "createStore("] },
  { name := "GraphQL", content := ["from 'graphql", "from \"graphql", "@apollo/", "gql`"]
    suffixes := [".graphql", ".gql"] },
  { name := "Service Layer", paths := ["/services/", ".service."] },
  { name := "MVC Pattern", paths := ["/controllers/", ".controller."] },
  { name := "Middleware Pattern", paths := ["middleware"] },
  { name := "Utility Modules", paths := ["/utils/", "/util/", "/helpers/", "/lib/"] },
  { name := "Test Coverage", paths := [".test.", ".spec.", "/tests/", "/__tests__/"] }]

end CodeSurvey.Metrics
