import ChunkedChain.CommandLine.Invocation
import ChunkedChain.Config
import ChunkedChain.Terminal

/-!
# Outcomes of a session

A session carries out one command on the files of the system. Its outcome is what the user got to see, the
files as they are afterwards, and how it ended.
-/

namespace ChunkedChain

structure Outcome where
  events : List Event
  tree : FileTree
  result : Except Failure Unit

namespace Outcome

def done (events : List Event) (tree : FileTree) : Outcome := ⟨events, tree, .ok ()⟩

def failed (failure : Failure) (events : List Event) (tree : FileTree) : Outcome :=
  ⟨events, tree, .error failure⟩

end Outcome

namespace Settings

/-- Events that a quiet session leaves out. -/
def unlessQuiet (settings : Settings) (events : List Event) : List Event :=
  if settings.quiet then [] else events

def details (settings : Settings) (paths : List FilePath) : List Event :=
  if settings.showsDetails then paths.map fun path => .detail path.text else []

/-- The configuration, and the store at the states root that the settings select. -/
def prepare (settings : Settings) (env : Environment) (tree : FileTree) :
    Except Failure (Config × Store) × Log :=
  match Config.load tree env settings.config with
  | (.error failure, log) => (.error failure, log)
  | (.ok config, log) =>
    let (root, more) := env.statesRoot settings.statesRoot config.statesRoot
    (.ok (config, ⟨root⟩), log ++ more)

end Settings

end ChunkedChain
