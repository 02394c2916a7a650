import Stencil.Value.Mapping

/-!
# The default configuration

The lowest layer of every configuration: what a build and a preview read and write, the shape of
marker tokens, what is cleaned up, and how much is logged.
-/

namespace Stencil.Config

/-- A section of a configuration. -/
def ofNames (entries : List (String × Value)) : Mapping :=
  entries.map fun (name, v) => (.str name, v)

/-- A list of texts. -/
def texts (names : List String) : Value := .list (names.map .str)

/-- The default configuration. -/
def defaults : Mapping :=
  ofNames
    [("build", .map (ofNames
        [("source_suffixes", texts [".py"]), ("skip_prefixes", texts ["_", "test_"]),
          ("output_suffix", .str ".handlebars"),
          ("component_attributes", texts ["default", "Component"])])),
      ("preview", .map (ofNames
        [("output_dir", .str "previews"), ("output_suffix", .str ".html"),
          ("data_suffix", .str ".json")])),
      ("markers", .map (ofNames
        [("prefix", .str "__PROP_"), ("suffix", .str "__"), ("strict", .bool false)])),
      ("cleanup", .map (ofNames
        [("strip_comments", .bool true), ("strip_attributes", texts ["data-id"])])),
      ("logging", .map (ofNames [("level", .str "INFO"), ("file", .null)]))]

end Stencil.Config
