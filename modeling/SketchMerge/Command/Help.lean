import SketchMerge.Text.Glyph

/-! # Usage and help -/

namespace SketchMerge.Command

/-- How the program is called. -/
def usage : Text :=
  "usage: sketchpp [-h] [-v] [--log-file LOG_FILE] [--variant \x7bdefault,plain\x7d]\n"
    ++ "                [--ctags CTAGS]\n"
    ++ "                project_folder output_folder\n"

/-- What the program does, and what its arguments mean. -/
def help : Text :=
  usage
    ++ "\n"
    ++ "Merge the sketch files of a project into one translation unit and add forward\n"
    ++ "declarations for every function.\n"
    ++ "\n"
    ++ "positional arguments:\n"
    ++ "  project_folder        Folder holding <folder name>.ino and its siblings.\n"
    ++ "  output_folder         Folder that receives the preprocessed sources.\n"
    ++ "\n"
    ++ "options:\n"
    ++ "  -h, --help            show this help message and exit\n"
    ++ "  -v, --verbose         Increase log verbosity for troubleshooting.\n"
    ++ "  --log-file LOG_FILE   Also write log records to this file.\n"
    ++ "  --variant \x7bdefault,plain\x7d\n"
    ++ "                        Pipeline variant (overrides .sketchpp.yml).\n"
    ++ "  --ctags CTAGS         Path to the ctags executable (overrides SKETCHPP_CTAGS\n"
    ++ "                        and .sketchpp.yml).\n"

end SketchMerge.Command
