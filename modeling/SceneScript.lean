import SceneScript.Session
import SceneScript.Main
import SceneScript.Proofs.TextTheorems
import SceneScript.Proofs.CatalogTheorems
import SceneScript.Proofs.RegistryTheorems
import SceneScript.Proofs.SchemaTheorems
import SceneScript.Proofs.LayoutTheorems
import SceneScript.Proofs.PathTheorems
import SceneScript.Proofs.FrameTheorems
import SceneScript.Proofs.PullTheorems
import SceneScript.Proofs.StandardTheorems
import SceneScript.Proofs.EngineTheorems
import SceneScript.Proofs.TableTheorems
import SceneScript.Proofs.InstallTheorems
import SceneScript.Proofs.NamespaceTheorems
import SceneScript.Proofs.CommandTheorems
import SceneScript.Proofs.DispatchTheorems
import SceneScript.Proofs.AtomicityTheorems
import SceneScript.Proofs.InquiryTheorems
import SceneScript.Proofs.EvaluationTheorems
import SceneScript.Proofs.SignatureTheorems
import SceneScript.Proofs.SessionTheorems
import SceneScript.Proofs.FieldTheorems
import SceneScript.Proofs.ConversionTheorems
import SceneScript.Proofs.ImageTheorems
import SceneScript.Proofs.ValueTheorems
import SceneScript.Proofs.RatioTheorems
import SceneScript.Proofs.BinaryTheorems
import SceneScript.Proofs.DecimalTheorems
import SceneScript.Proofs.NumeralTheorems
import SceneScript.Proofs.PlainTheorems
import SceneScript.Proofs.StringTheorems
import SceneScript.Proofs.RoundingTheorems
import SceneScript.Proofs.PointTheorems
import SceneScript.Proofs.RenderTheorems
import SceneScript.Proofs.TemplateTheorems
import SceneScript.Proofs.FormatTheorems
import SceneScript.Proofs.NearestTheorems
import SceneScript.Proofs.ReadingTheorems
import SceneScript.Proofs.IntegerTheorems
import SceneScript.Proofs.DimensionTheorems
import SceneScript.Proofs.LimitTheorems
import SceneScript.Proofs.PixelTheorems
import SceneScript.Proofs.LiteralTheorems
import SceneScript.Proofs.KeyTheorems
import SceneScript.Proofs.HintTheorems
import SceneScript.Proofs.RadiusTheorems
import SceneScript.Proofs.AccessTheorems
import SceneScript.Proofs.RecordTheorems
import SceneScript.Proofs.PaddingTheorems
import SceneScript.Proofs.HashTheorems
import SceneScript.Proofs.DirectiveTheorems
import SceneScript.Proofs.TreeTheorems
import SceneScript.Proofs.FilePathTheorems
import SceneScript.Proofs.FileTheorems
