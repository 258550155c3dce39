import Roster.CommandLine.Run
import Roster.Proofs.Source.Nodes

/-!
# What is read was built

Every reader adds what it finds to the empty configuration, one descriptor after another.
So whatever source a configuration was read from, it was built by successful additions.
-/

namespace Roster

open Roster.Storage (Path Store)

namespace Configuration

theorem gives_built_add {configuration : Configuration} (built : configuration.Built)
    (descriptor : String) : Gives (configuration.add descriptor) Built :=
  fun _ added => built.add descriptor added

theorem gives_built_addDatum {configuration : Configuration} (built : configuration.Built)
    (datum : Datum) : Gives (configuration.addDatum datum) Built := by
  cases datum with
  | text descriptor => exact gives_built_add built descriptor
  | _ => exact Gives.error _ _

/-- A configuration of descriptors is built. -/
theorem gives_built_ofDescriptors (descriptors : List String) :
    Gives (ofDescriptors descriptors) Built :=
  Gives.foldlM Built.empty fun _ built descriptor => gives_built_add built descriptor

/-- A configuration of data is built. -/
theorem gives_built_addAllData (data : List Datum) : Gives (empty.addAllData data) Built :=
  Gives.foldlM Built.empty fun _ built datum => gives_built_addDatum built datum

end Configuration

/-- A reading with a built configuration. -/
def Reading.IsBuilt (reading : Reading) : Prop := reading.configuration.Built

theorem gives_built_countedReading (origin : String)
    {result : Except InvalidDescriptor Configuration}
    (built : Gives result Configuration.Built) :
    Gives (countedReading origin result) Reading.IsBuilt := by
  cases result with
  | error cause => exact Gives.error _ _
  | ok configuration => exact Gives.ok (built configuration rfl)

theorem gives_built_readText (text : String) : Gives (readText text) Reading.IsBuilt :=
  gives_built_countedReading _ (Configuration.gives_built_ofDescriptors _)

theorem gives_built_readArguments (arguments : List Datum) :
    Gives (readArguments arguments) Reading.IsBuilt :=
  gives_built_countedReading _ (Configuration.gives_built_addAllData _)

theorem gives_built_readPlainFile (store : Store) (path : Path) :
    Gives (readPlainFile store path) Reading.IsBuilt :=
  Gives.bind_any fun _ => gives_built_countedReading _ (Configuration.gives_built_ofDescriptors _)

theorem gives_built_nodesReading (origin : String) (nodes : WideConfiguration) :
    Gives (nodesReading origin nodes) Reading.IsBuilt := by
  unfold nodesReading
  split
  · exact Gives.error _ _
  · exact gives_built_countedReading _ (Configuration.gives_built_ofDescriptors _)

theorem gives_built_readDocument (path : Path) (document : Option Yaml.Value) :
    Gives (readDocument path document) Reading.IsBuilt := by
  unfold readDocument
  split
  · exact Gives.ok .empty
  · exact Gives.ok .empty
  · split
    · exact Gives.ok .empty
    · exact Gives.ok .empty
    · exact Gives.ok .empty
    · exact Gives.bind_any fun nodes => gives_built_nodesReading _ nodes
    · exact Gives.error _ _
  · exact Gives.error _ _

theorem gives_built_readYamlFile (version : Option Yaml.Version) (store : Store) (path : Path) :
    Gives (readYamlFile version store path).1 Reading.IsBuilt := by
  unfold readYamlFile
  split
  · exact Gives.error _ _
  · exact Gives.bind_any fun document => gives_built_readDocument path document

namespace CommandLine

/-- Whatever source the options name, what is read from it is built. -/
theorem Options.gives_built_read (options : Options) (store : Store) :
    Gives (options.read store) fun result => result.1.IsBuilt := by
  have labelled : ∀ (label : String) (reading : Except ReadError Reading),
      Gives reading Reading.IsBuilt →
      Gives ((reading.mapError CommandError.read).map fun reading => (reading, label))
        fun result => result.1.IsBuilt := by
    intro label reading built
    exact (built.mapError CommandError.read).map fun _ given => given
  unfold Options.read
  split
  · exact labelled _ _ (gives_built_readPlainFile store _)
  · exact labelled _ _ (gives_built_readYamlFile none store _)
  · exact labelled _ _ (gives_built_readArguments _)
  · exact labelled _ _ (gives_built_readText _)
  · exact Gives.error _ _

end CommandLine

end Roster
