import PageCompiler.Project.Option

/-! # Project configuration

What a project file can say: the configuration of the build, the entry file, and how the compiler
logs. Relative paths of a project file are relative to the directory that it lies in.
-/

namespace PageCompiler

/-- Levels for single phases, where they differ from the general one. -/
structure LogTargets where
  scan : Option LogLevel := none
  resolve : Option LogLevel := none
  assemble : Option LogLevel := none
  emit : Option LogLevel := none
deriving DecidableEq, Inhabited

def LogTargets.levelFor (targets : LogTargets) : Phase → Option LogLevel
  | .scan => targets.scan
  | .resolve => targets.resolve
  | .assemble => targets.assemble
  | .emit => targets.emit

structure LoggingConfig where
  level : LogLevel := .warn
  format : LogFormat := .compact
  /-- A file that gets the log lines too. -/
  file? : Option Path := none
  targets : LogTargets := {}
deriving DecidableEq, Inhabited

structure ProjectConfig where
  entry? : Option Path := none
  build : BuildConfig := {}
  logging : LoggingConfig := {}
deriving DecidableEq, Inhabited

/-! ## Moving relative paths -/

def ModuleBinding.rebase (base : Path) (binding : ModuleBinding) : ModuleBinding :=
  { binding with path := base.join binding.path }

/-- The configuration with its relative paths moved to `base`. -/
def BuildConfig.rebase (base : Path) (config : BuildConfig) : BuildConfig :=
  { config with
    moduleSearchPaths := config.moduleSearchPaths.map base.join
    outputPath := base.join config.outputPath
    modules := config.modules.map (ModuleBinding.rebase base) }

/-- The project with its relative paths moved to `base`. -/
def ProjectConfig.rebase (base : Path) (project : ProjectConfig) : ProjectConfig where
  entry? := project.entry?.map base.join
  build := project.build.rebase base
  logging := { project.logging with file? := project.logging.file?.map base.join }

end PageCompiler
